import NodeSettings.Proofs.Duration
import NodeSettings.Proofs.Duration.Precision

/-!
This module contains the reading of seconds: whole seconds from integers and from texts, and
fractions of seconds from texts. A single part is not rounded when it is added to zero, so that only
the rounding of its length has to be small.
-/

namespace NodeSettings
namespace Duration

section

variable {s : Sign} {p : Part} {a : Amount} {d : Duration} {n : Nat} {v : ℚ}

theorem hasValue_total_singleton (h : a.length.HasValue false v) (hfits : Binary64.Fits v)
    (hv : v < 2 ^ (1000 : Int)) : (total [a]).HasValue false v := by
  have hsum := (Binary64.hasValue_zero false).add h
  rw [zero_add] at hsum
  exact hsum.hasValue_of_fits hfits hv

theorem lt_of_micros (hd : d.micros = s.integer n) (hn : |v - n| < 1 / 2) :
    v < 2 ^ (1000 : Int) := by
  have hrange := d.inRange
  have hlimit : n ≤ 10 ^ 20 := by
    rw [hd, Sign.integer] at hrange
    split at hrange <;> omega
  have hcast : (n : ℚ) ≤ 10 ^ 20 := by exact_mod_cast hlimit
  rw [abs_lt] at hn
  calc v < 10 ^ 20 + 1 / 2 := by linarith
    _ < 2 ^ (67 : Int) := by norm_num
    _ ≤ 2 ^ (1000 : Int) := zpow_le_zpow_right₀ one_le_two (by decide)

theorem ofText_part (hlength : p.amount.length.HasValue false v) (hfits : Binary64.Fits v)
    (hv : v = 0 ∨ 1 ≤ v) (hn : |v - n| < 1 / 2) (hd : d.micros = s.integer n) :
    ofText (.ofChars (s.chars ++ p.chars)) = .ok d := by
  have hnone : ∀ c ∈ ([] : List Char), Text.isBlank c = true := nofun
  have hchars : [] ++ (s.chars ++ [p].flatMap Part.chars ++ []) = s.chars ++ p.chars := by
    rw [List.nil_append, List.append_nil, List.flatMap_singleton]
  have hstripped := exists_stripped_parts hnone hnone s [p]
  rw [hchars] at hstripped
  rcases hstripped with ⟨r, hsign, hbare⟩
  have htotal := hasValue_total_singleton hlength hfits (lt_of_micros hd hn)
  rw [ofText_parts r (List.cons_ne_nil p []) hbare, hsign]
  exact ofLength_eq_ok _ (hasValue_signed htotal s) hv hn hd

theorem abs_sub_lt_of_isLength (hv : IsLength p v) (hp : p.micros = n) (hn : n ≤ 2 ^ 50) :
    |v - n| < 1 / 2 := by
  have hlow := hv.lowest_le
  have hhigh := hv.le_highest
  have hresidue := residue_le
  have hcast : (n : ℚ) ≤ 2 ^ 50 := by exact_mod_cast hn
  have hpos : (0 : ℚ) ≤ n := Nat.cast_nonneg n
  rw [hp] at hlow hhigh
  rw [abs_lt]
  constructor
  . linarith
  . linarith

theorem ofText_part_of_micros (s : Sign) (hp : p.micros = n) (hn : n ≤ 2 ^ 50) :
    ∃ d, ofText (.ofChars (s.chars ++ p.chars)) = .ok d ∧ d.micros = s.integer n := by
  have hsmall : p.micros < overflow := by
    have hcast : (n : ℚ) ≤ 2 ^ 50 := by exact_mod_cast hn
    rw [hp]
    calc (n : ℚ) ≤ 2 ^ (50 : Int) := hcast
      _ < overflow := zpow_lt_zpow_right₀ one_lt_two (by decide)
  rcases exists_integer s (hn.trans (by decide)) with ⟨d, hd⟩
  rcases length_cases p with ⟨-, hlarge⟩ | ⟨v, hlength, hv⟩
  . exact absurd hsmall hlarge.not_gt
  refine ⟨d, ?_, hd⟩
  apply ofText_part hlength hv.fits _ (abs_sub_lt_of_isLength hv hp hn) hd
  rcases Nat.eq_zero_or_pos n with rfl | hpos
  . left
    exact hv.eq_zero (by rw [hp, Nat.cast_zero])
  . right
    apply hv.one_le
    rw [hp]
    exact Nat.one_le_cast.mpr hpos

end

section

variable {n : Nat}

theorem integer_signOf_seconds (n : Int) :
    (signOf n).integer (n.natAbs * 1000000) = n * 1000000 := by
  have hsign : signOf (n * 1000000) = signOf n := by
    unfold signOf
    congr 1
    rw [eq_iff_iff]
    omega
  rw [← integer_signOf (n * 1000000), hsign, Int.natAbs_mul]
  rfl

def secondsPart (n : Nat) : Part :=
  (canonicalPart (n, .second)).toPart

theorem toList_integer (n : Int) :
    (Text.integer n).toList = (signOf n).chars ++ Nat.toDigits 10 n.natAbs := by
  cases n with
  | ofNat n =>
    have hsign : signOf (.ofNat n) = .none := if_neg (Int.natCast_nonneg n).not_gt
    rw [hsign]
    exact String.toList_ofList
  | negSucc n =>
    have hsign : signOf (.negSucc n) = .minus := if_pos (Int.negSucc_lt_zero n)
    show ("-" ++ Text.decimal (n + 1)).toList = _
    rw [hsign, String.toList_append, Text.decimal, String.toList_ofList, String.toList_ofList]
    rfl

theorem integer_append_seconds (n : Int) :
    ((Text.integer n ++ "s" : String) : Text) =
      .ofChars ((signOf n).chars ++ (secondsPart n.natAbs).chars) := by
  rw [Text.ofString, String.toList_append, toList_integer, secondsPart, chars_canonicalPart,
    partChars, List.append_assoc]
  rfl

theorem fits_seconds (hn : n ≤ 576460752303) : Binary64.Fits (n * 1000000 : Nat) := by
  refine ⟨n * 15625, 6, ?_, by omega, by decide⟩
  have hsize : n * 1000000 = n * 15625 * 2 ^ 6 := by omega
  rw [hsize]
  exact_mod_cast rfl

theorem seconds_lt (hn : n ≤ 576460752303) : ((n * 1000000 : Nat) : ℚ) < 2 ^ (1000 : Int) := by
  have hlimit : n * 1000000 < 2 ^ 60 := by omega
  have hcast : ((n * 1000000 : Nat) : ℚ) < 2 ^ (60 : Int) := by exact_mod_cast hlimit
  exact hcast.trans (zpow_lt_zpow_right₀ one_lt_two (by decide))

theorem hasValue_length_secondsPart (hn : n ≤ 576460752303) :
    (secondsPart n).amount.length.HasValue false (n * 1000000 : Nat) := by
  have hnumber : (Binary64.ofDecimal false n 0).IsExactly false n :=
    Binary64.isExactly_ofDecimal (hn.trans (by decide))
  have hsize : AmountUnit.second.size.IsExactly false 1000000 := isExactly_size .second
  have hlength : (secondsPart n).amount.length =
      (Binary64.ofDecimal false n 0).mul AmountUnit.second.size := by
    rw [secondsPart, length_toPart, canonicalPart, Text.decimalValue_toDigits]
    rfl
  rw [Binary64.isExactly_iff] at hnumber hsize
  have hproduct := hnumber.mul hsize
  rw [← Nat.cast_mul] at hproduct
  rw [hlength]
  exact hproduct.hasValue_of_fits (fits_seconds hn) (seconds_lt hn)

theorem ofValue_integer_eq_ok {n : Int} {d : Duration} (hd : d.micros = n * 1000000) :
    ofValue (.integer n) = .ok d := by
  unfold ofValue
  dsimp only
  rw [← hd, ofMicros?_micros]
  rfl

theorem ofValue_seconds {n : Int} {d : Duration} (hn : n.natAbs ≤ 576460752303)
    (hd : d.micros = n * 1000000) :
    ofValue (.text (Text.integer n ++ "s" : String)) = .ok d := by
  show ofText ((Text.integer n ++ "s" : String) : Text) = .ok d
  rw [integer_append_seconds]
  apply ofText_part (hasValue_length_secondsPart hn) (fits_seconds hn)
  . rcases Nat.eq_zero_or_pos n.natAbs with hzero | hpos
    . left
      rw [hzero, Nat.zero_mul, Nat.cast_zero]
    . right
      exact Nat.one_le_cast.mpr (by omega)
  . rw [sub_self, abs_zero]
    norm_num
  . rw [hd, integer_signOf_seconds]

end

/--
An integer is read as so many seconds in just the range of durations. Up to a bound that is far
beyond 53 bits of microseconds, the text of the seconds is read as the integer is.
-/
theorem ofValue_integer_reads_seconds :
    (∀ n : Int, -86399999913600 ≤ n → n ≤ 86399999999999 →
        ∃ d, ofValue (.integer n) = .ok d ∧ d.micros = n * 1000000)
      ∧ (∀ n : Int, n < -86399999913600 ∨ 86399999999999 < n →
        ofValue (.integer n) = .error (refuse .outOfRange (.integer n))
          ∧ (Failure.duration (refuse .outOfRange (.integer n))).kind = "ValueError")
      ∧ ∀ n : Int, n.natAbs ≤ 576460752303 →
        ofValue (.text (Text.integer n ++ "s" : String)) = ofValue (.integer n) := by
  refine ⟨?_, ?_, ?_⟩
  . intro n hlow hhigh
    exact ⟨⟨n * 1000000, by omega⟩, ofValue_integer_eq_ok rfl, rfl⟩
  . intro n hn
    have hnone : ofMicros? (n * 1000000) = none := by
      unfold ofMicros? minMicros maxMicros
      rw [dif_neg (by omega)]
    refine ⟨?_, rfl⟩
    unfold ofValue
    dsimp only
    rw [hnone]
    rfl
  . intro n hn
    have hd : (⟨n * 1000000, by omega⟩ : Duration).micros = n * 1000000 := rfl
    rw [ofValue_seconds hn hd, ofValue_integer_eq_ok hd]

theorem ofValue_integer_reads_seconds_limits :
    (∃ d, ofValue (.integer 86399999999999) = .ok d ∧ d.micros = 86399999999999000000)
      ∧ ofValue (.integer 86400000000000) = .error (.outOfRange "86400000000000")
      ∧ ofValue (.integer (-86399999913601)) = .error (.outOfRange "-86399999913601")
      ∧ (Text.integer (-576460752303) ++ "s" : String) = "-576460752303s"
      ∧ ofValue (.text ("-576460752303s" : String)) = ofValue (.integer (-576460752303)) := by
  have htext : (Text.integer (-576460752303) ++ "s" : String) = "-576460752303s" := by
    decide +kernel
  have hlong : refuse .outOfRange (.integer 86400000000000) = .outOfRange "86400000000000" := by
    decide +kernel
  have hlow : refuse .outOfRange (.integer (-86399999913601)) = .outOfRange "-86399999913601" := by
    decide +kernel
  rcases ofValue_integer_reads_seconds with ⟨hread, hrefused, hsame⟩
  have hlongRefused := (hrefused 86400000000000 (by decide)).1
  have hlowRefused := (hrefused (-86399999913601) (by decide)).1
  have hlowest := hsame (-576460752303) (by decide)
  rw [hlong] at hlongRefused
  rw [hlow] at hlowRefused
  rw [htext] at hlowest
  exact ⟨hread 86399999999999 (by decide) (by decide), hlongRefused, hlowRefused, htext, hlowest⟩

section

variable {whole fraction : List Char} {n : Nat}

def fractionPart (whole fraction : List Char) (hwhole : ∀ c ∈ whole, c.isDigit = true)
    (hfraction : ∀ c ∈ fraction, c.isDigit = true) (hne : fraction ≠ []) : Part where
  whole := whole
  fraction := some fraction
  unit := .second
  symbol := ['s']
  isDecimal_whole c hc := isDecimal_of_isDigit (hwhole c hc)
  isDecimal_fraction c hc := isDecimal_of_isDigit (hfraction c hc)
  hasDigit := .inr hne
  symbol_mem := by decide

end

/--
Digits with a point among them are read as whole microseconds if that is what they denote, which is
always so with six digits behind the point or fewer.
-/
theorem ofValue_fraction_eq (s : Sign) {whole fraction : List Char} {n : Nat}
    (hwhole : ∀ c ∈ whole, c.isDigit = true) (hfraction : ∀ c ∈ fraction, c.isDigit = true)
    (hne : fraction ≠ [])
    (hvalue : n * 10 ^ fraction.length = Text.decimalValue (whole ++ fraction) * 10 ^ 6)
    (hn : n ≤ 2 ^ 50) :
    ∃ d, ofValue (.text (.ofChars (s.chars ++ (whole ++ '.' :: (fraction ++ ['s']))))) = .ok d
      ∧ d.micros = s.integer n := by
  have hmicros : (fractionPart whole fraction hwhole hfraction hne).micros = n := by
    have hpos : (0 : ℚ) < 10 ^ fraction.length := by positivity
    show (Text.decimalValue (whole ++ fraction) : ℚ) / 10 ^ fraction.length * 1000000 = n
    rw [div_mul_eq_mul_div, div_eq_iff hpos.ne']
    exact_mod_cast hvalue.symm
  have hchars : (fractionPart whole fraction hwhole hfraction hne).chars =
      whole ++ '.' :: (fraction ++ ['s']) := by
    show whole ++ '.' :: fraction ++ ['s'] = _
    rw [List.append_assoc, List.cons_append]
  have hread := ofText_part_of_micros s hmicros hn
  rwa [hchars] at hread

/-- A single microsecond is not too short, and the bound is reached with ten digits of seconds. -/
theorem ofValue_fraction_eq_bounds :
    (∃ d, ofValue (.text ("-0.000001s" : String)) = .ok d ∧ d.micros = -1)
      ∧ ∃ d, ofValue (.text ("+1125899906.842624s" : String)) = .ok d
        ∧ d.micros = 1125899906842624 := by
  have hdigits (cs : List Char) (h : (cs.all Char.isDigit) = true) : ∀ c ∈ cs, c.isDigit = true :=
    List.all_eq_true.mp h
  have hleast := ofValue_fraction_eq .minus (n := 1) (hdigits ['0'] rfl)
    (hdigits ['0', '0', '0', '0', '0', '1'] rfl) nofun (by decide) (by decide)
  have hgreatest := ofValue_fraction_eq .plus (n := 2 ^ 50)
    (hdigits ['1', '1', '2', '5', '8', '9', '9', '9', '0', '6'] rfl)
    (hdigits ['8', '4', '2', '6', '2', '4'] rfl) nofun (by decide) (by decide)
  have htextLeast : Text.ofChars (Sign.minus.chars
      ++ (['0'] ++ '.' :: (['0', '0', '0', '0', '0', '1'] ++ ['s']))) =
        ("-0.000001s" : String) := rfl
  have htextGreatest : Text.ofChars (Sign.plus.chars
      ++ (['1', '1', '2', '5', '8', '9', '9', '9', '0', '6']
        ++ '.' :: (['8', '4', '2', '6', '2', '4'] ++ ['s']))) =
          ("+1125899906.842624s" : String) := rfl
  rw [htextLeast] at hleast
  rw [htextGreatest] at hgreatest
  exact ⟨hleast, hgreatest⟩

end Duration
end NodeSettings
