import NodeSettings.Proofs.Binary64.Rounding

/-!
This module contains the arithmetic of binary floating point numbers by their values: a sum and a
product are the exact ones, rounded. What durations are read by, whether a number is less than one
and which integer is nearest, depends on the value only.
-/

namespace NodeSettings
namespace Binary64

variable {x y : Binary64} {p : Bool} {q r : ℚ} {n : Nat}

theorem cast_unitsPerOne : ((unitsPerOne : Nat) : ℚ) * 2 ^ minExponent = 1 := by
  have hexponent : ((1074 : Nat) : Int) + minExponent = 0 := by decide
  rw [unitsPerOne, cast_twoPow, ← zpow_add₀ two_ne_zero, hexponent, zpow_zero]

theorem unitsPerOne_pos : 0 < unitsPerOne :=
  twoPow_pos 1074

theorem HasValue.neg (h : x.HasValue p q) : x.neg.HasValue (!p) q := by
  rcases h with ⟨s, e, rfl, he, hvalue⟩
  exact ⟨s, e, rfl, he, hvalue⟩

theorem HasValue.nonneg (h : x.HasValue p q) : 0 ≤ q := by
  rcases h with ⟨s, e, -, -, rfl⟩
  exact mul_nonneg (Nat.cast_nonneg s) (zpow_pos two_pos e).le

theorem HasValue.exists_units (h : x.HasValue p q) :
    ∃ k : Nat, x.units? = some (if p then -(k : Int) else k) ∧ q = k * 2 ^ minExponent := by
  rcases h with ⟨s, e, rfl, he, rfl⟩
  refine ⟨s * twoPow (e - minExponent).toNat, ?_, ?_⟩
  . rw [Nat.cast_mul]
    rfl
  . rw [Nat.cast_mul, cast_twoPow, mul_assoc, Int.toNat_of_nonneg (by omega),
      ← zpow_add₀ two_ne_zero, sub_add_cancel]

theorem IsNearest.exists_hasValue (h : x.IsNearest p q) (hq : q < 2 ^ (1000 : Int)) :
    ∃ v, x.HasValue p v ∧ RoundsTo q v := by
  rcases h with ⟨-, hlarge⟩ | h
  . exact absurd hlarge hq.not_ge
  . exact h

theorem IsNearest.hasValue_of_fits (h : x.IsNearest p q) (hfits : Fits q)
    (hq : q < 2 ^ (1000 : Int)) : x.HasValue p q := by
  rcases h.exists_hasValue hq with ⟨v, hv, hround⟩
  rwa [hround.eq_of_fits hfits] at hv

theorem HasValue.mul (hx : x.HasValue false q) (hy : y.HasValue false r) :
    (x.mul y).IsNearest false (q * r) := by
  rcases hx with ⟨s, e, rfl, -, rfl⟩
  rcases hy with ⟨t, f, rfl, -, rfl⟩
  have hratio : ((s * t * twoPow (e + f).toNat : Nat) : ℚ) / (twoPow (-(e + f)).toNat : Nat) =
      s * 2 ^ e * (t * 2 ^ f) := by
    rw [Nat.cast_mul, mul_div_assoc, twoPow_div_twoPow, zpow_add₀ two_ne_zero, Nat.cast_mul]
    ring
  rw [← hratio]
  exact isNearest_ofRatio (twoPow_pos _) false _

theorem HasValue.add (hx : x.HasValue false q) (hy : y.HasValue false r) :
    (x.add y).IsNearest false (q + r) := by
  rcases hx.exists_units with ⟨j, hj, hq⟩
  rcases hy.exists_units with ⟨k, hk, hr⟩
  rcases hx with ⟨s, e, rfl, -, -⟩
  rcases hy with ⟨t, f, rfl, -, -⟩
  have hunits : ((unitsPerOne : Nat) : ℚ) ≠ 0 := (Nat.cast_pos.mpr unitsPerOne_pos).ne'
  have hratio : ((j + k : Nat) : ℚ) / (unitsPerOne : Nat) = q + r := by
    rw [div_eq_iff hunits, hq, hr, ← add_mul, mul_assoc, mul_comm (2 ^ minExponent),
      cast_unitsPerOne, mul_one, Nat.cast_add]
  have hsign : (if (j : Int) + k = 0 then false && false else decide ((j : Int) + k < 0)) =
      false := by
    split
    . rfl
    . rw [decide_eq_false_iff_not]
      omega
  have hadd : (finite false s e).add (finite false t f) = ofRatio false (j + k) unitsPerOne := by
    rw [if_neg Bool.false_ne_true] at hj hk
    unfold Binary64.add
    dsimp only
    rw [hj, hk, Option.getD_some, Option.getD_some, hsign]
    rfl
  rw [← hratio, hadd]
  exact isNearest_ofRatio unitsPerOne_pos false _

theorem infinity_mul (hy : y.HasValue false r) (hr : 0 < r) :
    (infinity false).mul y = infinity false := by
  rcases hy with ⟨t, f, rfl, -, rfl⟩
  have ht : (t == 0) = false := by
    rw [beq_eq_false_iff_ne]
    rintro rfl
    rw [Nat.cast_zero, zero_mul] at hr
    exact lt_irrefl 0 hr
  show (if (t == 0) = true then nan else infinity false) = infinity false
  rw [ht, if_neg Bool.false_ne_true]

theorem infinity_add (hy : y.HasValue false r) : (infinity false).add y = infinity false := by
  rcases hy with ⟨t, f, rfl, -, -⟩
  rfl

theorem HasValue.add_infinity (hx : x.HasValue false q) :
    x.add (infinity false) = infinity false := by
  rcases hx with ⟨s, e, rfl, -, -⟩
  rfl

theorem HasValue.isZero_iff (h : x.HasValue p q) : x.isZero = true ↔ q = 0 := by
  rcases h with ⟨s, e, rfl, -, rfl⟩
  show (s == 0) = true ↔ _
  rw [beq_iff_eq, mul_eq_zero, or_iff_left (zpow_pos two_pos e).ne', Nat.cast_eq_zero]

theorem lt_one_iff {k : Nat} (hq : q = k * 2 ^ minExponent) : q < 1 ↔ k < unitsPerOne := by
  rw [hq, ← cast_unitsPerOne, mul_lt_mul_iff_left₀ (zpow_pos two_pos _), Nat.cast_lt]

theorem HasValue.isSmall_iff (h : x.HasValue p q) :
    (!x.isZero && x.compareInt? 1 == some .lt && x.compareInt? (-1) == some .gt) = true ↔
      0 < q ∧ q < 1 := by
  rcases h.exists_units with ⟨k, hk, hq⟩
  have hcompare (n : Int) : x.compareInt? n =
      some (compare (if p then -(k : Int) else k) (n * unitsPerOne)) := by
    rcases h with ⟨s, e, rfl, -, -⟩
    show some (compare ((finite p s e).units?.getD 0) (n * unitsPerOne)) = _
    rw [hk, Option.getD_some]
  have hzero : (!x.isZero) = true ↔ 0 < q := by
    rw [Bool.not_eq_true', ← Bool.not_eq_true, h.isZero_iff, ← ne_eq, h.nonneg.lt_iff_ne', ne_eq]
  have hpositive := unitsPerOne_pos
  rw [Bool.and_eq_true, Bool.and_eq_true, hzero, lt_one_iff hq, and_assoc, hcompare, hcompare,
    beq_iff_eq, beq_iff_eq, Option.some.injEq, Option.some.injEq, Int.compare_eq_lt,
    Int.compare_eq_gt]
  apply and_congr_right'
  cases p with
  | false =>
    rw [if_neg Bool.false_ne_true]
    omega
  | true =>
    rw [if_pos rfl]
    omega

theorem HasValue.round?_eq (h : x.HasValue p q) (hn : |q - n| < 1 / 2) :
    x.round? = some (if p then -(n : Int) else n) := by
  rcases h.exists_units with ⟨k, hk, hq⟩
  have hunits : ((unitsPerOne : Nat) : ℚ) ≠ 0 := (Nat.cast_pos.mpr unitsPerOne_pos).ne'
  have hratio : (k : ℚ) / (unitsPerOne : Nat) = q := by
    rw [div_eq_iff hunits, hq, mul_assoc, mul_comm (2 ^ minExponent), cast_unitsPerOne, mul_one]
  have hrounded : roundHalfEven k unitsPerOne = n := by
    have hnear := abs_roundHalfEven_sub_le unitsPerOne_pos k
    rw [hratio] at hnear
    have hless : |((roundHalfEven k unitsPerOne : Int) : ℚ) - (n : Int)| < 1 :=
      calc _ ≤ |(roundHalfEven k unitsPerOne : ℚ) - q| + |q - n| := abs_sub_le _ _ _
        _ < 1 := by linarith
    have hint : |(roundHalfEven k unitsPerOne : Int) - n| < 1 := by exact_mod_cast hless
    have hzero := Int.abs_lt_one_iff.mp hint
    omega
  unfold round?
  rw [hk, Option.map_some]
  cases p with
  | false =>
    rw [if_neg Bool.false_ne_true, if_neg Bool.false_ne_true, Int.natAbs_natCast, hrounded,
      if_neg (by omega)]
  | true =>
    rw [if_pos rfl, if_pos rfl, Int.natAbs_neg, Int.natAbs_natCast, hrounded]
    split
    . rfl
    . next hpositive =>
      have hk : k = 0 := by omega
      have hn : n = 0 := by
        rw [← hrounded, hk, roundHalfEven, Nat.zero_div, Nat.zero_mod, if_pos unitsPerOne_pos]
      rw [hn]
      rfl

end Binary64
end NodeSettings
