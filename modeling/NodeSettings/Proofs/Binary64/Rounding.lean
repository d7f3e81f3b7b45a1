import Mathlib.Algebra.Order.Field.Power
import Mathlib.Tactic.FieldSimp
import Mathlib.Tactic.Linarith
import Mathlib.Tactic.NormNum
import Mathlib.Tactic.Positivity
import Mathlib.Tactic.Ring
import NodeSettings.Binary64.Basic

/-!
This module contains the rounding of ratios to binary floating point numbers, as a relation of
rational numbers: how far a ratio is from what it is rounded to, and which ratios are not rounded
at all.
-/

namespace NodeSettings

theorem twoPow_pos (k : Nat) : 0 < twoPow k :=
  Nat.pow_pos two_pos

theorem cast_twoPow (k : Nat) : ((twoPow k : Nat) : ℚ) = 2 ^ (k : Int) :=
  Nat.cast_pow 2 k

theorem twoPow_div_twoPow (e : Int) :
    ((twoPow e.toNat : Nat) : ℚ) / (twoPow (-e).toNat : Nat) = 2 ^ e := by
  rw [cast_twoPow, cast_twoPow, ← zpow_sub₀ (two_ne_zero : (2 : ℚ) ≠ 0)]
  congr 1
  omega

theorem abs_roundHalfEven_sub_le {den : Nat} (hden : 0 < den) (num : Nat) :
    |(roundHalfEven num den : ℚ) - num / den| ≤ 1 / 2 := by
  have hpos : (0 : ℚ) < den := Nat.cast_pos.mpr hden
  have hdivide : (num : ℚ) / den = (num / den : Nat) + (num % den : Nat) / den := by
    rw [eq_comm, ← eq_sub_iff_add_eq', div_eq_iff hpos.ne', sub_mul, div_mul_cancel₀ _ hpos.ne',
      eq_sub_iff_add_eq', mul_comm]
    exact_mod_cast Nat.div_add_mod num den
  -- Both neighbours are no further than a half, each on its side of the middle.
  have hdown (h : 2 * (num % den) ≤ den) : |((num / den : Nat) : ℚ) - num / den| ≤ 1 / 2 := by
    have hrest : ((num % den : Nat) : ℚ) / den ≤ 1 / 2 := by
      rw [div_le_div_iff₀ hpos two_pos]
      exact_mod_cast (by omega)
    rw [hdivide, abs_sub_comm, add_sub_cancel_left, abs_of_nonneg (by positivity)]
    exact hrest
  have hup (h : den ≤ 2 * (num % den)) : |((num / den + 1 : Nat) : ℚ) - num / den| ≤ 1 / 2 := by
    have hrest : 1 / 2 ≤ ((num % den : Nat) : ℚ) / den := by
      rw [div_le_div_iff₀ two_pos hpos]
      exact_mod_cast (by omega)
    have hless : ((num % den : Nat) : ℚ) / den ≤ 1 := by
      rw [div_le_one hpos]
      exact_mod_cast (Nat.mod_lt num hden).le
    rw [hdivide, Nat.cast_add, Nat.cast_one, add_sub_add_left_eq_sub, abs_of_nonneg (by linarith)]
    linarith
  unfold roundHalfEven
  dsimp only
  split
  . exact hdown (by omega)
  . split
    . exact hup (by omega)
    . split
      . exact hdown (by omega)
      . exact hup (by omega)

namespace Binary64

def HasValue (x : Binary64) (negative : Bool) (q : ℚ) : Prop :=
  ∃ s e, x = .finite negative s e ∧ minExponent ≤ e ∧ (s : ℚ) * 2 ^ e = q

/--
A ratio is rounded to a multiple of a unit that is half of the unit away at most. The ratio has 53
bits in front of the unit, or fewer if the unit is the smallest.
-/
def RoundsTo (q v : ℚ) : Prop :=
  ∃ (s : Nat) (e : Int), v = s * 2 ^ e ∧ minExponent ≤ e ∧ (e = minExponent ∨ 2 ^ (e + 52) ≤ q)
    ∧ q < 2 ^ (e + 53) ∧ |v - q| ≤ 2 ^ e / 2

/-- A number is what a ratio is rounded to; only a large ratio is rounded to an infinite number. -/
def IsNearest (x : Binary64) (negative : Bool) (q : ℚ) : Prop :=
  (x = infinity negative ∧ 2 ^ (1000 : Int) ≤ q) ∨ ∃ v, x.HasValue negative v ∧ RoundsTo q v

def Fits (q : ℚ) : Prop :=
  ∃ (m : Nat) (k : Int), q = m * 2 ^ k ∧ m ≤ 2 ^ 53 ∧ minExponent ≤ k

variable {x y : Binary64} {p : Bool} {q v : ℚ} {num den : Nat}

theorem ratio_bounds (hnum : 0 < num) (hden : 0 < den) :
    (2 : ℚ) ^ ((num.log2 : Int) - den.log2 - 1) < num / den
      ∧ (num : ℚ) / den < 2 ^ ((num.log2 : Int) - den.log2 + 1) := by
  have hpos : (0 : ℚ) < den := Nat.cast_pos.mpr hden
  have hlow (n : Nat) (hn : 0 < n) : (2 : ℚ) ^ (n.log2 : Int) ≤ n := by
    rw [zpow_natCast]
    exact_mod_cast Nat.log2_self_le hn.ne'
  have hhigh (n : Nat) : (n : ℚ) < 2 ^ ((n.log2 : Int) + 1) := by
    rw [← Nat.cast_succ, zpow_natCast]
    exact_mod_cast Nat.lt_log2_self
  constructor
  . rw [lt_div_iff₀ hpos]
    calc (2 : ℚ) ^ ((num.log2 : Int) - den.log2 - 1) * den
        < 2 ^ ((num.log2 : Int) - den.log2 - 1) * 2 ^ ((den.log2 : Int) + 1) :=
          mul_lt_mul_of_pos_left (hhigh den) (zpow_pos two_pos _)
      _ = 2 ^ (num.log2 : Int) := by
          rw [← zpow_add₀ two_ne_zero]
          congr 1
          omega
      _ ≤ num := hlow num hnum
  . rw [div_lt_iff₀ hpos]
    calc (num : ℚ) < 2 ^ ((num.log2 : Int) + 1) := hhigh num
      _ = 2 ^ ((num.log2 : Int) - den.log2 + 1) * 2 ^ (den.log2 : Int) := by
          rw [← zpow_add₀ two_ne_zero]
          congr 1
          omega
      _ ≤ 2 ^ ((num.log2 : Int) - den.log2 + 1) * den :=
          mul_le_mul_of_nonneg_left (hlow den hden) (zpow_pos two_pos _).le

theorem isShort_iff (hden : 0 < den) (e : Int) :
    num * twoPow (-e).toNat < den * twoPow e.toNat * twoPow 52 ↔
      (num : ℚ) / den < 2 ^ (e + 52) := by
  have hpos : (0 : ℚ) < den := Nat.cast_pos.mpr hden
  have hpow : (0 : ℚ) < (twoPow (-e).toNat : Nat) := Nat.cast_pos.mpr (twoPow_pos _)
  have hunit : (2 : ℚ) ^ (e + 52) * (twoPow (-e).toNat : Nat) =
      (twoPow e.toNat : Nat) * (twoPow 52 : Nat) := by
    rw [zpow_add₀ two_ne_zero, ← twoPow_div_twoPow, mul_right_comm, div_mul_cancel₀ _ hpow.ne']
    congr 1
  rw [div_lt_iff₀ hpos, ← mul_lt_mul_iff_left₀ hpow, mul_right_comm _ (den : ℚ), hunit,
    mul_comm _ (den : ℚ), ← mul_assoc]
  exact_mod_cast Iff.rfl

theorem minExponent_le (num den : Nat) : minExponent ≤ exponentOf num den := by
  unfold exponentOf
  exact Int.le_max_left _ _

/-- At its exponent a ratio has 53 bits in front of the point, or the exponent is the least. -/
theorem exponentOf_bounds (hnum : 0 < num) (hden : 0 < den) :
    (exponentOf num den = minExponent ∨ 2 ^ (exponentOf num den + 52) ≤ (num : ℚ) / den)
      ∧ (num : ℚ) / den < 2 ^ (exponentOf num den + 53) := by
  rcases ratio_bounds hnum hden with ⟨hlow, hhigh⟩
  unfold exponentOf
  dsimp only
  generalize hguess : (num.log2 : Int) - den.log2 - 52 = guess
  have hlog : (num.log2 : Int) - den.log2 = guess + 52 := by omega
  rw [hlog] at hlow hhigh
  split
  . next hshort =>
    rw [isShort_iff hden] at hshort
    constructor
    . by_cases hmin : guess - 1 ≤ minExponent
      . left
        omega
      . right
        rw [max_eq_right (by omega), sub_add_eq_add_sub]
        exact hlow.le
    . refine hshort.trans_le (zpow_le_zpow_right₀ one_le_two ?_)
      omega
  . next hshort =>
    rw [isShort_iff hden, not_lt] at hshort
    constructor
    . by_cases hmin : guess ≤ minExponent
      . left
        omega
      . right
        rw [max_eq_right (by omega)]
        exact hshort
    . refine hhigh.trans_le (zpow_le_zpow_right₀ one_le_two ?_)
      omega

theorem abs_inUnits_sub_le (hden : 0 < den) (num : Nat) (e : Int) :
    |(inUnits num den e : ℚ) * 2 ^ e - num / den| ≤ 2 ^ e / 2 := by
  have hcast (k : Nat) : ((twoPow k : Nat) : ℚ) ≠ 0 := (Nat.cast_pos.mpr (twoPow_pos k)).ne'
  have hdenCast : (den : ℚ) ≠ 0 := (Nat.cast_pos.mpr hden).ne'
  have hround := abs_roundHalfEven_sub_le (Nat.mul_pos hden (twoPow_pos e.toNat))
    (num * twoPow (-e).toNat)
  have hratio : ((num * twoPow (-e).toNat : Nat) : ℚ) / (den * twoPow e.toNat : Nat) * 2 ^ e =
      num / den := by
    have hup := hcast e.toNat
    have hdown := hcast (-e).toNat
    rw [← twoPow_div_twoPow, Nat.cast_mul, Nat.cast_mul]
    field_simp
  unfold inUnits
  have hpos : (0 : ℚ) < 2 ^ e := zpow_pos two_pos _
  rw [← hratio, ← sub_mul, abs_mul, abs_of_pos hpos]
  calc _ ≤ 1 / 2 * 2 ^ e := mul_le_mul_of_nonneg_right hround hpos.le
    _ = 2 ^ e / 2 := by ring

theorem carry_cases {s : Nat} {e : Int} (hmin : minExponent ≤ e) :
    let carried :=
      let (s, e) := if s = twoPow 53 then (twoPow 52, e + 1) else (s, e)
      if maxExponent < e then infinity p else finite p s e
    (carried = infinity p ∧ maxExponent ≤ e) ∨ carried.HasValue p (s * 2 ^ e) := by
  by_cases hcarry : s = twoPow 53
  . rw [if_pos hcarry]
    dsimp only
    split
    . left
      refine ⟨rfl, ?_⟩
      omega
    . right
      refine ⟨_, _, rfl, by omega, ?_⟩
      rw [hcarry, cast_twoPow, cast_twoPow, ← zpow_add₀ two_ne_zero, ← zpow_add₀ two_ne_zero]
      congr 1
      omega
  . rw [if_neg hcarry]
    dsimp only
    split
    . left
      refine ⟨rfl, ?_⟩
      omega
    . right
      exact ⟨_, _, rfl, hmin, rfl⟩

theorem hasValue_zero (p : Bool) : (zero p).HasValue p 0 := by
  refine ⟨0, minExponent, rfl, le_rfl, ?_⟩
  rw [Nat.cast_zero, zero_mul]

theorem roundsTo_zero (hq : 0 ≤ q) (h : q ≤ 2 ^ minExponent / 2) : RoundsTo q 0 := by
  refine ⟨0, minExponent, by rw [Nat.cast_zero, zero_mul], le_rfl, .inl rfl, ?_, ?_⟩
  . have hpos : (0 : ℚ) < 2 ^ minExponent := zpow_pos two_pos _
    have hlarge : (2 : ℚ) ^ (minExponent + 53) = 2 ^ minExponent * 2 ^ (53 : Int) :=
      zpow_add₀ two_ne_zero _ _
    have hmany : (1 : ℚ) ≤ 2 ^ (53 : Int) := by norm_num
    rw [hlarge]
    nlinarith
  . rw [zero_sub, abs_neg, abs_of_nonneg hq]
    exact h

theorem isNearest_ofRatio (hden : 0 < den) (p : Bool) (num : Nat) :
    (ofRatio p num den).IsNearest p (num / den) := by
  rcases Nat.eq_zero_or_pos num with rfl | hnum
  . right
    rw [ofRatio, if_pos rfl, Nat.cast_zero, zero_div]
    exact ⟨0, hasValue_zero p, roundsTo_zero le_rfl (half_pos (zpow_pos two_pos _)).le⟩
  . rcases exponentOf_bounds hnum hden with ⟨hlow, hhigh⟩
    have hmin := minExponent_le num den
    have hcases := carry_cases (p := p) (s := inUnits num den (exponentOf num den)) hmin
    unfold ofRatio
    rw [if_neg hnum.ne']
    rcases hcases with ⟨hinfinite, hmax⟩ | hvalue
    . left
      refine ⟨hinfinite, ?_⟩
      unfold minExponent at hlow
      unfold maxExponent at hmax
      refine (zpow_le_zpow_right₀ one_le_two ?_).trans (hlow.resolve_left (by omega))
      omega
    . right
      exact ⟨_, hvalue, _, _, rfl, hmin, hlow, hhigh, abs_inUnits_sub_le hden num _⟩

theorem isNearest_ofDecimal (p : Bool) (n k : Nat) :
    (ofDecimal p n (-k)).IsNearest p (n / 10 ^ k) := by
  have hten : (0 : ℚ) < 10 ^ k := by positivity
  unfold ofDecimal
  dsimp only
  by_cases hzero : n = 0
  . right
    rw [if_pos hzero, hzero, Nat.cast_zero, zero_div]
    exact ⟨0, hasValue_zero p, roundsTo_zero le_rfl (half_pos (zpow_pos two_pos _)).le⟩
  rw [if_neg hzero]
  split
  . next hlarge =>
    left
    refine ⟨rfl, ?_⟩
    have hlog : 1000 + 4 * k ≤ n.log2 := by omega
    have hlow : 2 ^ n.log2 ≤ n := Nat.log2_self_le hzero
    rw [le_div_iff₀ hten]
    calc (2 : ℚ) ^ (1000 : Int) * 10 ^ k ≤ 2 ^ (1000 : Int) * 16 ^ k :=
          mul_le_mul_of_nonneg_left (pow_le_pow_left₀ (by norm_num) (by norm_num) k)
            (zpow_pos two_pos _).le
      _ = 2 ^ (1000 + 4 * k) := by
          rw [pow_add, pow_mul]
          norm_num
      _ ≤ 2 ^ n.log2 := pow_le_pow_right₀ one_le_two hlog
      _ ≤ n := by exact_mod_cast hlow
  . split
    . next hsmall =>
      right
      have hhigh : n < 2 ^ (n.log2 + 1) := Nat.lt_log2_self
      have hexponent : 1200 + (n.log2 + 1) ≤ 3 * k := by omega
      refine ⟨0, hasValue_zero p, roundsTo_zero (by positivity) ?_⟩
      rw [div_le_iff₀ hten]
      calc (n : ℚ) ≤ 2 ^ (n.log2 + 1) := by exact_mod_cast hhigh.le
        _ = 2 ^ (-1200 : Int) * 2 ^ (1200 + (n.log2 + 1)) := by
            rw [pow_add _ 1200, ← mul_assoc, ← zpow_natCast 2 1200, ← zpow_add₀ two_ne_zero]
            norm_num
        _ ≤ 2 ^ minExponent / 2 * 2 ^ (3 * k) := by
            refine mul_le_mul ?_ (pow_le_pow_right₀ one_le_two hexponent) (by positivity)
              (half_pos (zpow_pos two_pos _)).le
            rw [le_div_iff₀ two_pos, ← zpow_add_one₀ two_ne_zero]
            exact zpow_le_zpow_right₀ one_le_two (by decide)
        _ ≤ 2 ^ minExponent / 2 * 10 ^ k := by
            refine mul_le_mul_of_nonneg_left ?_ (half_pos (zpow_pos two_pos _)).le
            rw [pow_mul]
            exact pow_le_pow_left₀ (by norm_num) (by norm_num) k
    . have hpos : 0 < tenPow k := Nat.pow_pos (by norm_num)
      have hratio := isNearest_ofRatio hpos p n
      have hcast : ((tenPow k : Nat) : ℚ) = 10 ^ k := Nat.cast_pow 10 k
      have hone : tenPow (-(k : Int)).toNat = 1 := by
        rw [Int.toNat_neg_natCast]
        rfl
      rw [hone, Nat.mul_one, neg_neg, Int.toNat_natCast]
      rwa [hcast] at hratio

theorem eq_of_abs_sub_le {s t : Nat} {e : Int} (h : |(s : ℚ) * 2 ^ e - t * 2 ^ e| ≤ 2 ^ e / 2) :
    s = t := by
  have hpos : (0 : ℚ) < 2 ^ e := zpow_pos two_pos _
  rw [← sub_mul, abs_mul, abs_of_pos hpos, div_eq_inv_mul, mul_le_mul_iff_left₀ hpos] at h
  have hless : |((s : Int) : ℚ) - (t : Int)| < 1 := h.trans_lt (by norm_num)
  have hint : |(s : Int) - t| < 1 := by exact_mod_cast hless
  have hzero := Int.abs_lt_one_iff.mp hint
  omega

theorem RoundsTo.eq_of_fits (h : RoundsTo q v) (hq : Fits q) : v = q := by
  rcases hq with ⟨m, k, rfl, hm, hk⟩
  rcases h with ⟨s, e, rfl, -, hlow, -, hnear⟩
  have hmultiple : ∃ t : Nat, (m : ℚ) * 2 ^ k = t * 2 ^ e := by
    by_cases he : e ≤ k
    . refine ⟨m * 2 ^ (k - e).toNat, ?_⟩
      rw [Nat.cast_mul, Nat.cast_pow, Nat.cast_ofNat, mul_assoc, ← zpow_natCast,
        Int.toNat_of_nonneg (by omega), ← zpow_add₀ two_ne_zero, sub_add_cancel]
    -- The unit can only be larger if all 54 bits are there.
    . have hbits : (m : ℚ) * 2 ^ k ≤ 2 ^ (53 + k) := by
        rw [zpow_add₀ two_ne_zero]
        refine mul_le_mul_of_nonneg_right ?_ (zpow_pos two_pos k).le
        exact_mod_cast hm
      have hreach := hlow.resolve_left (by omega)
      have hexponent : e + 52 ≤ 53 + k :=
        (zpow_le_zpow_iff_right₀ one_lt_two).mp (hreach.trans hbits)
      have hunit : e + 52 = 53 + k := by omega
      rw [← hunit] at hbits
      refine ⟨2 ^ 52, ?_⟩
      rw [le_antisymm hbits hreach, zpow_add₀ two_ne_zero, mul_comm]
      norm_num
  rcases hmultiple with ⟨t, ht⟩
  rw [ht] at hnear
  rw [ht, eq_of_abs_sub_le hnear]

theorem RoundsTo.fits (h : RoundsTo q v) : Fits v := by
  rcases h with ⟨s, e, rfl, he, -, hhigh, hnear⟩
  refine ⟨s, e, rfl, ?_, he⟩
  have hpos : (0 : ℚ) < 2 ^ e := zpow_pos two_pos _
  have hlimit : (s : ℚ) * 2 ^ e < (2 ^ (53 : Int) + 1) * 2 ^ e := by
    rw [abs_le] at hnear
    rw [zpow_add₀ two_ne_zero, mul_comm] at hhigh
    linarith
  rw [mul_lt_mul_iff_left₀ hpos] at hlimit
  exact Nat.lt_succ_iff.mp (by exact_mod_cast hlimit)

theorem fits_natCast {n : Nat} (h : n ≤ 2 ^ 53) : Fits n :=
  ⟨n, 0, by rw [zpow_zero, mul_one], h, by decide⟩

theorem half_unit_le {e : Int} (h : 2 ^ (e + 52) ≤ q) : (2 : ℚ) ^ e / 2 ≤ q / 2 ^ 53 := by
  have hunit : (2 : ℚ) ^ e / 2 = 2 ^ (e + 52) / 2 ^ 53 := by
    rw [zpow_add₀ two_ne_zero]
    norm_num
    ring
  rw [hunit]
  exact div_le_div_of_nonneg_right h (by positivity)

theorem RoundsTo.abs_sub_le (h : RoundsTo q v) (hq : 0 ≤ q) :
    |v - q| ≤ q / 2 ^ 53 + 2 ^ minExponent := by
  rcases h with ⟨s, e, -, -, hlow, -, hnear⟩
  have hpos : (0 : ℚ) < 2 ^ minExponent := zpow_pos two_pos _
  refine hnear.trans ?_
  rcases hlow with rfl | hlow
  . have hshare : 0 ≤ q / 2 ^ 53 := by positivity
    linarith
  . have hshare := half_unit_le hlow
    linarith

theorem RoundsTo.abs_sub_le_of_multiple {k : Nat} (h : RoundsTo q v)
    (hq : q = k * 2 ^ minExponent) : |v - q| ≤ q / 2 ^ 53 := by
  by_cases hk : k ≤ 2 ^ 53
  . rw [h.eq_of_fits ⟨k, minExponent, hq, hk, le_rfl⟩, sub_self, abs_zero, hq]
    positivity
  . rcases h with ⟨s, e, -, -, hlow, -, hnear⟩
    refine hnear.trans (half_unit_le ?_)
    rcases hlow with rfl | hlow
    . have hlarge : (2 : ℚ) ^ (52 : Int) ≤ k := by
        have hless : 2 ^ 52 ≤ k := by omega
        exact_mod_cast hless
      rw [hq, zpow_add₀ two_ne_zero, mul_comm]
      exact mul_le_mul_of_nonneg_right hlarge (zpow_pos two_pos _).le
    . exact hlow

theorem RoundsTo.le_of_lt {s : Nat} {e : Int} (h : RoundsTo q v) (hlow : 2 ^ 52 < s)
    (hhigh : s ≤ 2 ^ 53) (he : minExponent ≤ e) (hlt : ((s : ℚ) - 1 / 2) * 2 ^ e < q) :
    (s : ℚ) * 2 ^ e ≤ v := by
  rcases h with ⟨t, f, rfl, -, hleast, hless, hnear⟩
  have hs : (2 : ℚ) ^ 52 + 1 ≤ s := by exact_mod_cast hlow
  have hs' : (s : ℚ) ≤ 2 ^ 53 := by exact_mod_cast hhigh
  have hposE : (0 : ℚ) < 2 ^ e := zpow_pos two_pos _
  have hposF : (0 : ℚ) < 2 ^ f := zpow_pos two_pos _
  have hef : e ≤ f := by
    have hstart : (2 : ℚ) ^ (e + 52) ≤ ((s : ℚ) - 1 / 2) * 2 ^ e := by
      rw [zpow_add₀ two_ne_zero, mul_comm]
      refine mul_le_mul_of_nonneg_right ?_ hposE.le
      rw [← zpow_natCast] at hs
      push_cast at hs
      linarith
    have hexponent : e + 52 < f + 53 :=
      (zpow_lt_zpow_iff_right₀ one_lt_two).mp ((hstart.trans_lt hlt).trans hless)
    omega
  rw [abs_le] at hnear
  rcases hef.eq_or_lt with rfl | hef
  . have hclose : ((s : ℚ) - 1) * 2 ^ e < t * 2 ^ e := by linarith
    rw [mul_lt_mul_iff_left₀ hposE, sub_lt_iff_lt_add] at hclose
    have hst : s ≤ t := Nat.lt_succ_iff.mp (by exact_mod_cast hclose)
    refine mul_le_mul_of_nonneg_right ?_ hposE.le
    exact_mod_cast hst
  -- The ratio has more bits than the number has, and what it is rounded to keeps them.
  . have hreach := hleast.resolve_left (by omega)
    rw [zpow_add₀ two_ne_zero, mul_comm] at hreach
    have hclose : ((2 : ℚ) ^ (52 : Int) - 1) * 2 ^ f < t * 2 ^ f := by linarith
    rw [mul_lt_mul_iff_left₀ hposF, sub_lt_iff_lt_add] at hclose
    have ht : 2 ^ 52 ≤ t := Nat.lt_succ_iff.mp (by exact_mod_cast hclose)
    have ht' : (2 : ℚ) ^ 52 ≤ t := by exact_mod_cast ht
    have hstep : (2 : ℚ) ^ (e + 1) ≤ 2 ^ f := zpow_le_zpow_right₀ one_le_two (by omega)
    rw [zpow_add_one₀ two_ne_zero] at hstep
    calc (s : ℚ) * 2 ^ e ≤ 2 ^ 53 * 2 ^ e := mul_le_mul_of_nonneg_right hs' hposE.le
      _ = 2 ^ 52 * (2 ^ e * 2) := by ring
      _ ≤ 2 ^ 52 * 2 ^ f := mul_le_mul_of_nonneg_left hstep (by positivity)
      _ ≤ t * 2 ^ f := mul_le_mul_of_nonneg_right ht' hposF.le

end Binary64
end NodeSettings
