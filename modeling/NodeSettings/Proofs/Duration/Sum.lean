import NodeSettings.Duration.Format
import NodeSettings.Proofs.Duration.Grammar

/-!
This module contains the reading of whole amounts: as long as their sum has at most 53 bits, it is
read exactly, in whatever order and in whatever pieces it is written.
-/

namespace NodeSettings
namespace Duration

def TimeUnit.toAmountUnit : TimeUnit → AmountUnit
  | hour => .hour
  | minute => .minute
  | second => .second
  | millisecond => .millisecond
  | microsecond => .microsecond

/-- Digits of ASCII with the symbol of a unit that is a whole number of microseconds. -/
structure WholePart where
  digits : List Char
  unit : TimeUnit
  symbol : List Char
  ne_nil : digits ≠ []
  isDigit : ∀ c ∈ digits, c.isDigit = true
  symbol_mem : symbol ∈ unit.toAmountUnit.symbols

theorem isDecimal_of_isDigit {c : Char} (h : c.isDigit = true) : Text.isDecimal c = true := by
  have hrange : 48 ≤ c.toNat ∧ c.toNat ≤ 57 := Char.isDigit_iff_toNat.mp h
  unfold Text.isDecimal Text.digitValue?
  rw [if_pos (by omega), if_pos h]
  rfl

namespace WholePart

def toPart (p : WholePart) : Part where
  whole := p.digits
  fraction := none
  unit := p.unit.toAmountUnit
  symbol := p.symbol
  isDecimal_whole c hc := isDecimal_of_isDigit (p.isDigit c hc)
  isDecimal_fraction := isDecimal_of_mem_none
  hasDigit := .inl p.ne_nil
  symbol_mem := p.symbol_mem

theorem chars_toPart (p : WholePart) : p.toPart.chars = p.digits ++ p.symbol := by
  show p.digits ++ [] ++ p.symbol = _
  rw [List.append_nil]

def micros (p : WholePart) : Nat :=
  Text.decimalValue p.digits * p.unit.size

end WholePart

def microsOf (parts : List WholePart) : Nat :=
  parts.foldr (fun p sum => p.micros + sum) 0

def Sign.integer (s : Sign) (n : Nat) : Int :=
  if s.isMinus then -n else n

def signOf (n : Int) : Sign :=
  if n < 0 then .minus else .none

theorem integer_signOf (n : Int) : (signOf n).integer n.natAbs = n := by
  unfold signOf
  split
  . show -(n.natAbs : Int) = n
    omega
  . show (n.natAbs : Int) = n
    omega

def written (front : List Char) (s : Sign) (parts : List WholePart) (back : List Char) : Text :=
  .ofChars (front ++ (s.chars ++ parts.flatMap (·.toPart.chars) ++ back))

section

variable {p : WholePart} {parts parts' : List WholePart} {x : Binary64} {n : Nat}
variable {front back : List Char} {c : Char}

theorem isExactly_size (u : TimeUnit) : u.toAmountUnit.size.IsExactly false u.size := by
  cases u with
  | hour => exact Binary64.isExactly_ofInt (n := 3600000000) (by decide)
  | minute => exact Binary64.isExactly_ofInt (n := 60000000) (by decide)
  | second => exact Binary64.isExactly_ofInt (n := 1000000) (by decide)
  | millisecond => exact Binary64.isExactly_ofInt (n := 1000) (by decide)
  | microsecond => exact Binary64.isExactly_ofInt (n := 1) (by decide)

theorem size_pos (u : TimeUnit) : 0 < u.size := by
  cases u <;> decide

theorem length_toPart (p : WholePart) :
    p.toPart.amount.length =
      (Binary64.ofDecimal false (Text.decimalValue p.digits) 0).mul p.unit.toAmountUnit.size := by
  show (Binary64.ofDecimal false (Text.decimalValue (p.digits ++ [])) 0).mul
    p.unit.toAmountUnit.size = _
  rw [List.append_nil]

theorem isExactly_length (h : p.micros ≤ twoPow 53) :
    p.toPart.amount.length.IsExactly false p.micros := by
  have hdigits : Text.decimalValue p.digits ≤ twoPow 53 :=
    Nat.le_trans (Nat.le_mul_of_pos_right _ (size_pos _)) h
  rw [length_toPart]
  exact (Binary64.isExactly_ofDecimal hdigits).mul (isExactly_size p.unit) h

theorem microsOf_cons (p : WholePart) (parts : List WholePart) :
    microsOf (p :: parts) = p.micros + microsOf parts := rfl

theorem microsOf_append (parts parts' : List WholePart) :
    microsOf (parts ++ parts') = microsOf parts + microsOf parts' := by
  induction parts with
  | nil => exact (Nat.zero_add _).symm
  | cons p parts ih => rw [List.cons_append, microsOf_cons, microsOf_cons, ih, Nat.add_assoc]

theorem microsOf_perm (h : parts'.Perm parts) : microsOf parts' = microsOf parts := by
  induction h with
  | nil => rfl
  | cons p _ ih => rw [microsOf_cons, microsOf_cons, ih]
  | swap p q parts =>
    simp only [microsOf_cons]
    omega
  | trans _ _ ih ih' => exact ih.trans ih'

theorem isExactly_foldl (hx : x.IsExactly false n) (h : n + microsOf parts ≤ twoPow 53) :
    ((parts.map (·.toPart.amount)).foldl (fun sum a => sum.add a.length) x).IsExactly false
      (n + microsOf parts) := by
  -- No partial sum is larger than the whole, so that none of them is rounded.
  induction parts generalizing n x with
  | nil => exact hx
  | cons p parts ih =>
    rw [microsOf_cons, ← Nat.add_assoc] at h ⊢
    rw [List.map_cons, List.foldl_cons]
    have hlength : p.toPart.amount.length.IsExactly false p.micros :=
      isExactly_length (by omega)
    exact ih (hx.add hlength (by omega)) h

theorem isExactly_total (h : microsOf parts ≤ twoPow 53) :
    (total (parts.map (·.toPart.amount))).IsExactly false (microsOf parts) := by
  rw [← Nat.zero_add (microsOf parts)] at h ⊢
  exact isExactly_foldl (Binary64.isExactly_zero false) h

theorem isExactly_signed (hx : x.IsExactly false n) (s : Sign) :
    (s.signed x).IsExactly s.isMinus n := by
  rw [Binary64.isExactly_iff] at hx ⊢
  exact hasValue_signed hx s

theorem ofLength_eq_ok {p : Bool} {q : ℚ} (raw : Value) {d : Duration} (h : x.HasValue p q)
    (hq : q = 0 ∨ 1 ≤ q) (hn : |q - n| < 1 / 2) (hd : d.micros = if p then -(n : Int) else n) :
    ofLength raw x = .ok d := by
  have hsmall := h.isSmall_iff
  have hround := h.round?_eq hn
  have hlarge : ¬ (0 < q ∧ q < 1) := by
    rintro ⟨hpos, hless⟩
    rcases hq with rfl | hq
    . exact lt_irrefl 0 hpos
    . exact hless.not_ge hq
  unfold ofLength
  dsimp only
  rw [if_neg (mt hsmall.mp hlarge)]
  rw [← hd] at hround
  rcases h with ⟨s, e, rfl, -, -⟩
  dsimp only
  rw [hround, Option.bind_some, ofMicros?_micros]
  rfl

theorem ofLength_eq_ok_of_isExactly {p : Bool} (raw : Value) {d : Duration} (h : x.IsExactly p n)
    (hd : d.micros = if p then -(n : Int) else n) : ofLength raw x = .ok d := by
  rw [Binary64.isExactly_iff] at h
  apply ofLength_eq_ok raw h _ _ hd
  . rcases Nat.eq_zero_or_pos n with rfl | hpos
    . exact .inl Nat.cast_zero
    . exact .inr (Nat.one_le_cast.mpr hpos)
  . rw [sub_self, abs_zero]
    norm_num

theorem exists_stripped_written (hfront : ∀ c ∈ front, Text.isBlank c = true)
    (hback : ∀ c ∈ back, Text.isBlank c = true) (s : Sign) (parts : List WholePart) :
    ∃ r : Stripped (written front s parts back),
      r.sign = s ∧ r.bare = partsText (parts.map WholePart.toPart) := by
  have hstripped := exists_stripped_parts hfront hback s (parts.map WholePart.toPart)
  rwa [List.flatMap_map] at hstripped

/-- A written sum is read exactly, with its sign. -/
theorem ofText_written (hfront : ∀ c ∈ front, Text.isBlank c = true)
    (hback : ∀ c ∈ back, Text.isBlank c = true) (s : Sign) (hne : parts ≠ [])
    (hbound : microsOf parts ≤ twoPow 53) {d : Duration}
    (hd : d.micros = s.integer (microsOf parts)) : ofText (written front s parts back) = .ok d := by
  rcases exists_stripped_written hfront hback s parts with ⟨r, hsign, hbare⟩
  have htotal := isExactly_signed (isExactly_total hbound) s
  rw [ofText_parts r (by simpa using hne) hbare, hsign, List.map_map]
  exact ofLength_eq_ok_of_isExactly _ htotal hd

theorem exists_integer (s : Sign) (h : n ≤ Nat.pow 2 53) :
    ∃ d : Duration, d.micros = s.integer n := by
  have hlimit : Nat.pow 2 53 = 9007199254740992 := by decide
  refine ⟨⟨s.integer n, ?_⟩, rfl⟩
  unfold Sign.integer
  split <;> omega

end

/--
A sum of whole amounts is read exactly as long as it has at most 53 bits. The order of the parts has
no effect on what is read, and neither has the writing of a part in several pieces.
-/
theorem ofValue_written_eq_sum {front back : List Char}
    (hfront : ∀ c ∈ front, Text.isBlank c = true) (hback : ∀ c ∈ back, Text.isBlank c = true)
    (s : Sign) {parts : List WholePart} (hne : parts ≠ [])
    (hbound : microsOf parts ≤ Nat.pow 2 53) :
    (∃ d, ofValue (.text (written front s parts back)) = .ok d
        ∧ d.micros = s.integer (microsOf parts))
      ∧ (∀ parts' : List WholePart, parts'.Perm parts →
        ofValue (.text (written front s parts' back)) =
          ofValue (.text (written front s parts back)))
      ∧ ∀ before p after pieces, parts = before ++ p :: after → pieces ≠ [] →
        microsOf pieces = p.micros →
          ofValue (.text (written front s (before ++ pieces ++ after) back)) =
            ofValue (.text (written front s parts back)) := by
  rcases exists_integer s hbound with ⟨d, hd⟩
  -- What is read depends on the sum of the parts only.
  have hread (parts' : List WholePart) (hne' : parts' ≠ [])
      (hsum : microsOf parts' = microsOf parts) :
      ofValue (.text (written front s parts' back)) = .ok d := by
    apply ofText_written hfront hback s hne'
    . rw [hsum]
      exact hbound
    . rw [hsum]
      exact hd
  rw [hread parts hne rfl]
  refine ⟨⟨d, rfl, hd⟩, ?_, ?_⟩
  . intro parts' hperm
    apply hread
    . rintro rfl
      exact hne hperm.nil_eq.symm
    . exact microsOf_perm hperm
  . rintro before p after pieces rfl hpieces hsum
    apply hread
    . simp [hpieces]
    . rw [microsOf_append, microsOf_append, microsOf_append, microsOf_cons, hsum, Nat.add_assoc]

def boundParts : List WholePart :=
  [⟨['9', '9', '2'], .microsecond, ['\u03bc', 's'], by decide, List.all_eq_true.mp rfl, by decide⟩,
    ⟨['0', '7', '4', '0'], .millisecond, ['m', 's'], by decide, List.all_eq_true.mp rfl, by decide⟩,
    ⟨['3', '4'], .second, ['s'], by decide, List.all_eq_true.mp rfl, by decide⟩,
    ⟨['4', '7'], .minute, ['m'], by decide, List.all_eq_true.mp rfl, by decide⟩,
    ⟨['2', '5', '0', '1', '9', '9', '9'], .hour, ['h'], by decide, List.all_eq_true.mp rfl,
      by decide⟩]

theorem ofValue_written_eq_sum_bound :
    microsOf boundParts = Nat.pow 2 53
      ∧ written [' '] .minus boundParts ['\n'] =
        (" -992\u03bcs0740ms34s47m2501999h\n" : String)
      ∧ (∃ d, ofValue (.text (" -992\u03bcs0740ms34s47m2501999h\n" : String)) = .ok d
        ∧ d.micros = -9007199254740992)
      ∧ ofValue (.text (" -2501999h47m34s0740ms992\u03bcs\n" : String)) =
        ofValue (.text (" -992\u03bcs0740ms34s47m2501999h\n" : String)) := by
  have hbound : microsOf boundParts = Nat.pow 2 53 := by decide
  have htext : written [' '] .minus boundParts ['\n'] =
      (" -992\u03bcs0740ms34s47m2501999h\n" : String) := rfl
  have hreverse : written [' '] .minus boundParts.reverse ['\n'] =
      (" -2501999h47m34s0740ms992\u03bcs\n" : String) := rfl
  have hfront : ∀ c ∈ [' '], Text.isBlank c = true := List.all_eq_true.mp rfl
  have hback : ∀ c ∈ ['\n'], Text.isBlank c = true := List.all_eq_true.mp rfl
  have hne : boundParts ≠ [] := by decide
  have hsum := ofValue_written_eq_sum hfront hback .minus hne (Nat.le_of_eq hbound)
  rcases hsum with ⟨⟨d, hread, hd⟩, hperm, -⟩
  rw [htext] at hread hperm
  rw [hbound] at hd
  refine ⟨hbound, htext, ⟨d, hread, hd⟩, ?_⟩
  rw [← hreverse]
  exact hperm _ (List.reverse_perm _)

end Duration
end NodeSettings
