import NodeSettings.Proofs.Binary64.Value

/-!
This module contains the integers that are binary floating point numbers exactly. Sums and products
of them are exact as long as the result has at most 53 bits. No sum and no product of numbers with
the sign of a positive one is undefined.
-/

namespace NodeSettings
namespace Binary64

def IsExactly (x : Binary64) (negative : Bool) (n : Nat) : Prop :=
  ∃ s e, x = .finite negative s e ∧ minExponent ≤ e
    ∧ s * twoPow (e - minExponent).toNat = n * unitsPerOne

variable {x y : Binary64} {n m : Nat} {p : Bool} {q : ℚ}

theorem isExactly_iff : x.IsExactly p n ↔ x.HasValue p n := by
  have hvalue (s : Nat) {e : Int} (he : minExponent ≤ e) :
      s * twoPow (e - minExponent).toNat = n * unitsPerOne ↔ (s : ℚ) * 2 ^ e = n := by
    have hleft : (s : ℚ) * 2 ^ e =
        (s * twoPow (e - minExponent).toNat : Nat) * 2 ^ minExponent := by
      rw [Nat.cast_mul, cast_twoPow, mul_assoc, Int.toNat_of_nonneg (by omega),
        ← zpow_add₀ two_ne_zero, sub_add_cancel]
    have hright : (n : ℚ) = (n * unitsPerOne : Nat) * 2 ^ minExponent := by
      rw [Nat.cast_mul, mul_assoc, cast_unitsPerOne, mul_one]
    rw [hleft, hright, mul_left_inj' (zpow_pos two_pos _).ne', Nat.cast_inj]
  constructor
  . rintro ⟨s, e, rfl, he, h⟩
    exact ⟨s, e, rfl, he, (hvalue s he).mp h⟩
  . rintro ⟨s, e, rfl, he, h⟩
    exact ⟨s, e, rfl, he, (hvalue s he).mpr h⟩

theorem isExactly_zero (p : Bool) : (zero p).IsExactly p 0 := by
  rw [isExactly_iff, Nat.cast_zero]
  exact hasValue_zero p

theorem isExactly_of_isNearest (hbound : n ≤ twoPow 53) (h : x.IsNearest p n) :
    x.IsExactly p n := by
  rw [isExactly_iff]
  apply h.hasValue_of_fits (fits_natCast hbound)
  have hbits : (n : ℚ) ≤ 2 ^ (53 : Int) := by exact_mod_cast hbound
  exact hbits.trans_lt (zpow_lt_zpow_right₀ one_lt_two (by norm_num))

theorem isExactly_ofInt (hbound : n ≤ twoPow 53) : (ofInt n).IsExactly false n := by
  have hsign : decide ((n : Int) < 0) = false := by simp
  have hratio := isNearest_ofRatio Nat.one_pos false n
  rw [Nat.cast_one, div_one] at hratio
  unfold ofInt
  rw [hsign, Int.natAbs_natCast]
  exact isExactly_of_isNearest hbound hratio

theorem isExactly_ofDecimal (hbound : n ≤ twoPow 53) : (ofDecimal false n 0).IsExactly false n := by
  have hdecimal := isNearest_ofDecimal false n 0
  rw [pow_zero, div_one] at hdecimal
  exact isExactly_of_isNearest hbound hdecimal

theorem IsExactly.mul (hx : x.IsExactly false n) (hy : y.IsExactly false m)
    (hbound : n * m ≤ twoPow 53) : (x.mul y).IsExactly false (n * m) := by
  rw [isExactly_iff] at hx hy
  apply isExactly_of_isNearest hbound
  rw [Nat.cast_mul]
  exact hx.mul hy

theorem IsExactly.add (hx : x.IsExactly false n) (hy : y.IsExactly false m)
    (hbound : n + m ≤ twoPow 53) : (x.add y).IsExactly false (n + m) := by
  rw [isExactly_iff] at hx hy
  apply isExactly_of_isNearest hbound
  rw [Nat.cast_add]
  exact hx.add hy

inductive IsPlus : Binary64 → Prop where
  | infinity : IsPlus (.infinity false)
  | finite (significand : Nat) (exponent : Int) : IsPlus (.finite false significand exponent)

theorem isPlus_carry (s : Nat) (e : Int) :
    IsPlus (
      let (s, e) := if s = twoPow 53 then (twoPow 52, e + 1) else (s, e)
      if maxExponent < e then .infinity false else .finite false s e) := by
  generalize (if s = twoPow 53 then (twoPow 52, e + 1) else (s, e)) = carried
  rcases carried with ⟨s, e⟩
  dsimp only
  split
  . exact .infinity
  . exact .finite s e

theorem isPlus_ofRatio (num den : Nat) : (ofRatio false num den).IsPlus := by
  unfold ofRatio
  by_cases hzero : num = 0
  . rw [if_pos hzero]
    exact .finite _ _
  . rw [if_neg hzero]
    apply isPlus_carry

theorem isPlus_ofDecimal (n : Nat) (e : Int) : (ofDecimal false n e).IsPlus := by
  unfold ofDecimal
  dsimp only
  split
  . exact .finite _ _
  . split
    . exact .infinity
    . split
      . exact .finite _ _
      . apply isPlus_ofRatio

theorem IsPlus.mul (hx : x.IsPlus) (hy : y.IsPlus) (hzero : y.isZero = false)
    (hfinite : y ≠ .infinity false) : (x.mul y).IsPlus := by
  cases hy with
  | infinity => exact absurd rfl hfinite
  | finite t f =>
    cases hx with
    | infinity =>
      have hmul : (Binary64.infinity false).mul (.finite false t f) = .infinity false := by
        show (if isZero (.finite false t f) = true then nan else .infinity false) = _
        rw [hzero]
        rfl
      rw [hmul]
      exact .infinity
    | finite s e => apply isPlus_ofRatio

theorem IsPlus.add (hx : x.IsPlus) (hy : y.IsPlus) : (x.add y).IsPlus := by
  cases hx with
  | infinity =>
    cases hy with
    | infinity => exact .infinity
    | finite t f => exact .infinity
  | finite s e =>
    cases hy with
    | infinity => exact .infinity
    | finite t f =>
      -- Two counts that are not negative have a sum that is not.
      have hunits (s : Nat) (e : Int) : 0 ≤ (Binary64.finite false s e).units?.getD 0 := by
        show (0 : Int) ≤ (s : Int) * (twoPow (e - minExponent).toNat : Nat)
        rw [← Int.natCast_mul]
        exact Int.natCast_nonneg _
      have hx := hunits s e
      have hy := hunits t f
      unfold Binary64.add
      dsimp only
      generalize (Binary64.finite false s e).units?.getD 0 = m at hx ⊢
      generalize (Binary64.finite false t f).units?.getD 0 = n at hy ⊢
      have hsign : (if m + n = 0 then false && false else decide (m + n < 0)) = false := by
        split
        . rfl
        . rw [decide_eq_false_iff_not]
          omega
      rw [hsign]
      apply isPlus_ofRatio

theorem IsPlus.ne_nan (h : x.IsPlus) : x ≠ .nan ∧ x.neg ≠ .nan := by
  cases h with
  | infinity => exact ⟨nofun, nofun⟩
  | finite s e => exact ⟨nofun, nofun⟩

end Binary64
end NodeSettings
