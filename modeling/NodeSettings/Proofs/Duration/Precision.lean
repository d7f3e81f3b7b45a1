import NodeSettings.Proofs.Duration.Grammar

/-!
This module contains how near the total of the parts of a text is to the sum that they denote. A
text is refused as too short just if the sum is less than a microsecond, as long as the sum is not
so near to a microsecond that the rounding of the parts decides.
-/

namespace NodeSettings
namespace Duration

def AmountUnit.micros : AmountUnit → ℚ
  | nanosecond => 1 / 1000
  | microsecond => 1
  | millisecond => 1000
  | second => 1000000
  | minute => 60000000
  | hour => 3600000000

namespace Part

def value (p : Part) : ℚ :=
  Text.decimalValue (p.whole ++ p.fraction.getD []) / 10 ^ (p.fraction.getD []).length

def micros (p : Part) : ℚ :=
  p.value * p.unit.micros

end Part

/-- The sum that parts denote, in microseconds, without any rounding. -/
def exactMicros (ps : List Part) : ℚ :=
  (ps.map Part.micros).sum

section

variable {p : Part} {ps : List Part} {x : Binary64} {k : Nat} {t q : ℚ}

theorem micros_unit_pos (u : AmountUnit) : 0 < u.micros := by
  cases u <;> norm_num [AmountUnit.micros]

theorem micros_unit_bounds (u : AmountUnit) : 1 / 1000 ≤ u.micros ∧ u.micros ≤ 3600000000 := by
  cases u <;> norm_num [AmountUnit.micros]

theorem value_nonneg (p : Part) : 0 ≤ p.value := by
  unfold Part.value
  positivity

theorem micros_nonneg (p : Part) : 0 ≤ p.micros :=
  mul_nonneg (value_nonneg p) (micros_unit_pos p.unit).le

theorem exactMicros_cons (p : Part) (ps : List Part) :
    exactMicros (p :: ps) = p.micros + exactMicros ps := by
  unfold exactMicros
  rw [List.map_cons, List.sum_cons]

theorem exactMicros_nonneg (ps : List Part) : 0 ≤ exactMicros ps := by
  induction ps with
  | nil => exact le_rfl
  | cons p ps ih =>
    rw [exactMicros_cons]
    exact add_nonneg (micros_nonneg p) ih

theorem micros_le_exactMicros (h : p ∈ ps) : p.micros ≤ exactMicros ps := by
  induction ps with
  | nil => cases h
  | cons q ps ih =>
    have hq := micros_nonneg q
    have hps := exactMicros_nonneg ps
    rw [exactMicros_cons]
    rcases List.mem_cons.mp h with rfl | h
    . linarith
    . have hp := ih h
      linarith

def AmountUnit.stored : AmountUnit → Nat × Int
  | nanosecond => (4611686018427388, -62)
  | microsecond => (4503599627370496, -52)
  | millisecond => (8796093022208000, -43)
  | second => (8589934592000000, -33)
  | minute => (8053063680000000, -27)
  | hour => (7549747200000000, -21)

def AmountUnit.reciprocal : AmountUnit → Nat × Int
  | nanosecond => (8796093022208000, -43)
  | microsecond => (9007199254740992, -53)
  | millisecond => (4611686018427388, -62)
  | second => (4722366482869645, -72)
  | minute => (5037190915060955, -78)
  | hour => (5373003642731685, -84)

def AmountUnit.storedMicros (u : AmountUnit) : ℚ :=
  u.stored.1 * 2 ^ u.stored.2

theorem hasValue_size (u : AmountUnit) : u.size.HasValue false u.storedMicros := by
  refine ⟨u.stored.1, u.stored.2, ?_, ?_, rfl⟩
  . cases u <;> decide +kernel
  . cases u <;> decide

theorem abs_storedMicros_sub_le (u : AmountUnit) :
    |u.storedMicros - u.micros| ≤ u.micros / 2 ^ 53 := by
  cases u <;> norm_num [AmountUnit.storedMicros, AmountUnit.stored, AmountUnit.micros, abs_le]

theorem storedMicros_pos (u : AmountUnit) : 0 < u.storedMicros := by
  have hnear := abs_le.mp (abs_storedMicros_sub_le u)
  have hpos := micros_unit_pos u
  linarith

theorem reciprocal_bounds (u : AmountUnit) :
    2 ^ 52 < u.reciprocal.1 ∧ u.reciprocal.1 ≤ 2 ^ 53
      ∧ Binary64.minExponent ≤ u.reciprocal.2 := by
  cases u <;> decide

theorem reciprocal_lt (u : AmountUnit) :
    ((u.reciprocal.1 : ℚ) - 1 / 2) * 2 ^ u.reciprocal.2 < 1 / u.micros := by
  cases u <;> norm_num [AmountUnit.reciprocal, AmountUnit.micros]

theorem lt_reciprocal_mul (u : AmountUnit) :
    (2 ^ 53 - 1 / 2) * 2 ^ (-53 : Int)
      < (u.reciprocal.1 : ℚ) * 2 ^ u.reciprocal.2 * u.storedMicros := by
  cases u <;> norm_num [AmountUnit.reciprocal, AmountUnit.storedMicros, AmountUnit.stored]

theorem one_le_of_roundsTo {q v : ℚ} (h : Binary64.RoundsTo q v)
    (hq : (2 ^ 53 - 1 / 2) * 2 ^ (-53 : Int) < q) : 1 ≤ v := by
  have hone : (1 : ℚ) = (2 ^ 53 : Nat) * 2 ^ (-53 : Int) := by norm_num
  rw [hone]
  apply h.le_of_lt
  . norm_num
  . exact le_rfl
  . decide
  . exact_mod_cast hq

theorem exists_number (p : Part) :
    ∃ x : Binary64, p.amount.length = x.mul p.unit.size ∧ x.IsNearest false p.value :=
  ⟨_, rfl, Binary64.isNearest_ofDecimal false _ _⟩

theorem product_bounds {q m a r v ε : ℚ} (hε : 0 ≤ ε) (hq : 0 ≤ q) (hm : 0 ≤ m)
    (haq : |a - q| ≤ q / 2 ^ 53 + ε) (hrm : |r - m| ≤ m / 2 ^ 53)
    (hv : |v - a * r| ≤ a * r / 2 ^ 53 + ε) :
    q * m * (1 - 1 / 2 ^ 53) ^ 3 - ε * (4 * m + 1) ≤ v
      ∧ v ≤ q * m * (1 + 1 / 2 ^ 53) ^ 3 + ε * (4 * m + 1) := by
  rw [abs_le, div_eq_mul_one_div] at haq hrm hv
  have hu : (0 : ℚ) ≤ 1 / 2 ^ 53 := by norm_num
  have hu' : (1 : ℚ) / 2 ^ 53 ≤ 1 := by norm_num
  generalize (1 : ℚ) / 2 ^ 53 = u at hu hu' haq hrm hv ⊢
  have hless : 0 ≤ 1 - u := by linarith
  have hmore : 1 + u ≤ 2 := by linarith
  have hrLow : m * (1 - u) ≤ r := by linarith
  have hrHigh : r ≤ m * (1 + u) := by linarith
  have hr : 0 ≤ r := (mul_nonneg hm hless).trans hrLow
  have hproductHigh : a * r ≤ (q * (1 + u) + ε) * (m * (1 + u)) :=
    mul_le_mul (by linarith) hrHigh hr (by positivity)
  have hproductLow : q * (1 - u) * (m * (1 - u)) - ε * (m * (1 + u)) ≤ a * r := by
    have hfirst : (q * (1 - u) - ε) * r ≤ a * r := mul_le_mul_of_nonneg_right (by linarith) hr
    have hsecond : q * (1 - u) * (m * (1 - u)) ≤ q * (1 - u) * r :=
      mul_le_mul_of_nonneg_left hrLow (mul_nonneg hq hless)
    have hthird : ε * r ≤ ε * (m * (1 + u)) := mul_le_mul_of_nonneg_left hrHigh hε
    linarith
  have hresidue : ε * m * (1 + u) ^ 2 ≤ ε * m * 4 := by
    refine mul_le_mul_of_nonneg_left ?_ (mul_nonneg hε hm)
    calc (1 + u) ^ 2 ≤ 2 ^ 2 := pow_le_pow_left₀ (by linarith) hmore 2
      _ = 4 := by norm_num
  constructor
  . have hscaled := mul_le_mul_of_nonneg_right hproductLow hless
    have hresidue' : ε * m * (1 + u) * (1 - u) ≤ ε * m * (1 + u) ^ 2 := by
      rw [pow_two, ← mul_assoc]
      exact mul_le_mul_of_nonneg_left (by linarith) (by positivity)
    linarith
  . have hscaled := mul_le_mul_of_nonneg_right hproductHigh (by linarith : 0 ≤ 1 + u)
    linarith

def residue : ℚ :=
  2 ^ (-1000 : Int)

def overflow : ℚ :=
  2 ^ (900 : Int)

theorem residue_pos : 0 < residue :=
  zpow_pos two_pos _

theorem residue_le : residue ≤ 1 / 1000000 := by
  have hexponent : residue ≤ 2 ^ (-20 : Int) := zpow_le_zpow_right₀ one_le_two (by decide)
  exact hexponent.trans (by norm_num)

theorem residue_le_overflow : residue ≤ overflow :=
  zpow_le_zpow_right₀ one_le_two (by decide)

theorem overflow_mul : overflow * 1000 ≤ 2 ^ (1000 : Int) := by
  have hsplit : (2 : ℚ) ^ (1000 : Int) = overflow * 2 ^ (100 : Int) :=
    zpow_add₀ two_ne_zero 900 100
  rw [hsplit]
  exact mul_le_mul_of_nonneg_left (by norm_num) (zpow_pos two_pos _).le

theorem unit_residue_le (u : AmountUnit) :
    (2 : ℚ) ^ Binary64.minExponent * (4 * u.micros + 1) ≤ residue := by
  have hlimit : 4 * u.micros + 1 ≤ 2 ^ (74 : Int) := by
    have hunit := (micros_unit_bounds u).2
    norm_num
    linarith
  calc (2 : ℚ) ^ Binary64.minExponent * (4 * u.micros + 1)
      ≤ 2 ^ Binary64.minExponent * 2 ^ (74 : Int) :=
        mul_le_mul_of_nonneg_left hlimit (zpow_pos two_pos _).le
    _ = residue := by
        rw [← zpow_add₀ two_ne_zero]
        rfl

theorem one_le_of_one_le_micros {a v : ℚ} (h : 1 ≤ p.micros)
    (hnumber : Binary64.RoundsTo p.value a)
    (hproduct : Binary64.RoundsTo (a * p.unit.storedMicros) v) : 1 ≤ v := by
  rcases reciprocal_bounds p.unit with ⟨hlow, hhigh, hmin⟩
  have hsize := (hasValue_size p.unit).nonneg
  have hvalue : 1 / p.unit.micros ≤ p.value := (div_le_iff₀ (micros_unit_pos p.unit)).mpr h
  have hreciprocal : (p.unit.reciprocal.1 : ℚ) * 2 ^ p.unit.reciprocal.2 ≤ a :=
    hnumber.le_of_lt hlow hhigh hmin ((reciprocal_lt p.unit).trans_le hvalue)
  apply one_le_of_roundsTo hproduct
  exact (lt_reciprocal_mul p.unit).trans_le (mul_le_mul_of_nonneg_right hreciprocal hsize)

theorem eq_zero_of_roundsTo {v : ℚ} (h : Binary64.RoundsTo 0 v) : v = 0 :=
  h.eq_of_fits ⟨0, 0, by rw [Nat.cast_zero, zero_mul], Nat.zero_le _, by decide⟩

/--
What is known of the value of the length of a part, which is rounded three times: the errors are in
proportion to the part and to the smallest numbers that there are.
-/
structure IsLength (p : Part) (v : ℚ) : Prop where
  fits : Binary64.Fits v
  lowest_le : p.micros * (1 - 1 / 2 ^ 53) ^ 3 - residue ≤ v
  le_highest : v ≤ p.micros * (1 + 1 / 2 ^ 53) ^ 3 + residue
  eq_zero : p.micros = 0 → v = 0
  one_le : 1 ≤ p.micros → 1 ≤ v

theorem length_bounds {a v : ℚ} (hnumber : Binary64.RoundsTo p.value a)
    (hv : |v - a * p.unit.storedMicros| ≤
      a * p.unit.storedMicros / 2 ^ 53 + 2 ^ Binary64.minExponent) :
    p.micros * (1 - 1 / 2 ^ 53) ^ 3 - residue ≤ v
      ∧ v ≤ p.micros * (1 + 1 / 2 ^ 53) ^ 3 + residue := by
  have hvalue := value_nonneg p
  have hresidue := unit_residue_le p.unit
  have hbounds := product_bounds (zpow_pos two_pos _).le hvalue (micros_unit_pos p.unit).le
    (hnumber.abs_sub_le hvalue) (abs_storedMicros_sub_le p.unit) hv
  unfold Part.micros
  constructor
  . linarith only [hbounds.1, hresidue]
  . linarith only [hbounds.2, hresidue]

theorem isLength_of_roundsTo {a v : ℚ} (ha : 0 ≤ a) (hnumber : Binary64.RoundsTo p.value a)
    (hproduct : Binary64.RoundsTo (a * p.unit.storedMicros) v) : IsLength p v := by
  have hnear := hproduct.abs_sub_le (mul_nonneg ha (hasValue_size p.unit).nonneg)
  have hbounds := length_bounds hnumber hnear
  refine ⟨hproduct.fits, hbounds.1, hbounds.2, ?_, (one_le_of_one_le_micros · hnumber hproduct)⟩
  intro hzero
  have hvalue : p.value = 0 := (mul_eq_zero.mp hzero).resolve_right (micros_unit_pos p.unit).ne'
  rw [hvalue] at hnumber
  rw [eq_zero_of_roundsTo hnumber, zero_mul] at hproduct
  exact eq_zero_of_roundsTo hproduct

theorem overflow_le_micros {a : ℚ} (ha : 0 ≤ a) (hnumber : Binary64.RoundsTo p.value a)
    (hlarge : 2 ^ (1000 : Int) ≤ a * p.unit.storedMicros) : overflow ≤ p.micros := by
  have hproduct := mul_nonneg ha (hasValue_size p.unit).nonneg
  have hexact : |a * p.unit.storedMicros - a * p.unit.storedMicros| ≤
      a * p.unit.storedMicros / 2 ^ 53 + 2 ^ Binary64.minExponent := by
    rw [sub_self, abs_zero]
    positivity
  have hbound := (length_bounds hnumber hexact).2
  have hfactor : p.micros * (1 + 1 / 2 ^ 53) ^ 3 ≤ p.micros * 2 :=
    mul_le_mul_of_nonneg_left (by norm_num) (micros_nonneg p)
  have hscaled := overflow_mul.trans hlarge
  have hsmall := residue_le_overflow
  linarith only [hbound, hfactor, hscaled, hsmall, residue_pos]

theorem length_cases (p : Part) :
    (p.amount.length = .infinity false ∧ overflow ≤ p.micros)
      ∨ ∃ v, p.amount.length.HasValue false v ∧ IsLength p v := by
  have hsize := hasValue_size p.unit
  rcases exists_number p with ⟨x, hlength, ⟨hinfinite, hlarge⟩ | ⟨a, ha, hnumber⟩⟩
  . left
    refine ⟨by rw [hlength, hinfinite, Binary64.infinity_mul hsize (storedMicros_pos p.unit)], ?_⟩
    have hproduct : p.value * (1 / 1000) ≤ p.micros :=
      mul_le_mul_of_nonneg_left (micros_unit_bounds p.unit).1 (value_nonneg p)
    have hscaled := overflow_mul.trans hlarge
    linarith only [hproduct, hscaled]
  . rw [hlength]
    rcases ha.mul hsize with ⟨hinfinite, hlarge⟩ | ⟨v, hv, hproduct⟩
    . exact .inl ⟨hinfinite, overflow_le_micros ha.nonneg hnumber hlarge⟩
    . exact .inr ⟨v, hv, isLength_of_roundsTo ha.nonneg hnumber hproduct⟩

def lowest (k : Nat) (t : ℚ) : ℚ :=
  t * (1 - 1 / 2 ^ 53) ^ (k + 3) - k * residue

def highest (k : Nat) (t : ℚ) : ℚ :=
  (t + k * residue) * (1 + 1 / 2 ^ 53) ^ (k + 3)

theorem lowest_le_self (ht : 0 ≤ t) (k : Nat) : lowest k t ≤ t := by
  have hfactor : t * (1 - 1 / 2 ^ 53) ^ (k + 3) ≤ t :=
    mul_le_of_le_one_right ht (pow_le_one₀ (by norm_num) (by norm_num))
  have hresidue : 0 ≤ k * residue := mul_nonneg (Nat.cast_nonneg k) residue_pos.le
  unfold lowest
  linarith

theorem le_highest_self (ht : 0 ≤ t) (k : Nat) : t ≤ highest k t := by
  have hresidue : 0 ≤ k * residue := mul_nonneg (Nat.cast_nonneg k) residue_pos.le
  have hfactor : t + k * residue ≤ highest k t :=
    le_mul_of_one_le_right (by linarith) (one_le_pow₀ (by norm_num))
  linarith

theorem lowest_succ_le {m v w : ℚ} (hm : 0 ≤ m) (hv : lowest k t ≤ v)
    (hw : m * (1 - 1 / 2 ^ 53) ^ 3 - residue ≤ w) :
    lowest (k + 1) (t + m) ≤ (v + w) * (1 - 1 / 2 ^ 53) := by
  have hη := residue_pos.le
  have hk : (0 : ℚ) ≤ k := Nat.cast_nonneg k
  have hless : (0 : ℚ) ≤ 1 - 1 / 2 ^ 53 := by norm_num
  have hone : (1 : ℚ) - 1 / 2 ^ 53 ≤ 1 := by norm_num
  unfold lowest at hv ⊢
  generalize (1 : ℚ) - 1 / 2 ^ 53 = a at hless hone hv hw ⊢
  have hpart : m * a ^ (k + 3) ≤ m * a ^ 3 :=
    mul_le_mul_of_nonneg_left (pow_le_pow_of_le_one hless hone (by omega)) hm
  have hsum : ((t + m) * a ^ (k + 3) - (k + 1) * residue) * a ≤ (v + w) * a :=
    mul_le_mul_of_nonneg_right (by linarith) hless
  have hresidue : (k + 1) * residue * a ≤ (k + 1) * residue :=
    mul_le_of_le_one_right (mul_nonneg (by linarith) hη) hone
  have hpower : a ^ (k + 1 + 3) = a ^ (k + 3) * a := pow_succ a (k + 3)
  rw [hpower, Nat.cast_add, Nat.cast_one]
  linarith

theorem le_highest_succ {m v w : ℚ} (hm : 0 ≤ m) (hv : v ≤ highest k t)
    (hw : w ≤ m * (1 + 1 / 2 ^ 53) ^ 3 + residue) :
    (v + w) * (1 + 1 / 2 ^ 53) ≤ highest (k + 1) (t + m) := by
  have hη := residue_pos.le
  have hone : (1 : ℚ) ≤ 1 + 1 / 2 ^ 53 := by norm_num
  unfold highest at hv ⊢
  generalize (1 : ℚ) + 1 / 2 ^ 53 = a at hone hv hw ⊢
  have hpart : m * a ^ 3 ≤ m * a ^ (k + 3) :=
    mul_le_mul_of_nonneg_left (pow_le_pow_right₀ hone (by omega)) hm
  have hresidue : residue ≤ residue * a ^ (k + 3) := le_mul_of_one_le_right hη (one_le_pow₀ hone)
  have hsum : (v + w) * a ≤ (t + m + (k + 1) * residue) * a ^ (k + 3) * a :=
    mul_le_mul_of_nonneg_right (by linarith) (by linarith)
  have hpower : a ^ (k + 1 + 3) = a ^ (k + 3) * a := pow_succ a (k + 3)
  rw [hpower, Nat.cast_add, Nat.cast_one]
  linarith

theorem highest_le_highest_succ {m : ℚ} (ht : 0 ≤ t) (hm : 0 ≤ m) :
    highest k t ≤ highest (k + 1) (t + m) := by
  have hhigh : 0 ≤ highest k t := ht.trans (le_highest_self ht k)
  have hpart : (0 : ℚ) ≤ m * (1 + 1 / 2 ^ 53) ^ 3 + residue :=
    add_nonneg (mul_nonneg hm (by norm_num)) residue_pos.le
  have hstep := le_highest_succ hm (le_refl (highest k t)) hpart
  linarith

structure IsTotal (ps : List Part) (v : ℚ) : Prop where
  lowest_le : lowest ps.length (exactMicros ps) ≤ v
  le_highest : v ≤ highest ps.length (exactMicros ps)
  eq_zero : exactMicros ps = 0 → v = 0
  /-- A part of a microsecond or more is not lost in a sum. -/
  one_le : (∃ p ∈ ps, 1 ≤ p.micros) → 1 ≤ v

theorem total_concat (as : List Amount) (a : Amount) :
    total (as ++ [a]) = (total as).add a.length := by
  unfold total
  rw [List.foldl_append]
  rfl

theorem exactMicros_concat (ps : List Part) (p : Part) :
    exactMicros (ps ++ [p]) = exactMicros ps + p.micros := by
  unfold exactMicros
  rw [List.map_append, List.sum_append, List.map_singleton, List.sum_singleton]

theorem isTotal_nil : IsTotal [] 0 where
  lowest_le := lowest_le_self le_rfl 0
  le_highest := le_highest_self le_rfl 0
  eq_zero _ := rfl
  one_le := by
    rintro ⟨p, hp, -⟩
    cases hp

theorem IsTotal.concat {v w z : ℚ} (hv : IsTotal ps v) (hw : IsLength p w) (hvPos : 0 ≤ v)
    (hwPos : 0 ≤ w) (hround : Binary64.RoundsTo (v + w) z)
    (hnear : |z - (v + w)| ≤ (v + w) / 2 ^ 53) :
    IsTotal (ps ++ [p]) z := by
  have ht := exactMicros_nonneg ps
  have hm := micros_nonneg p
  have hlow := lowest_succ_le hm hv.lowest_le hw.lowest_le
  have hhigh := le_highest_succ hm hv.le_highest hw.le_highest
  rw [abs_le] at hnear
  constructor
  . rw [List.length_append, List.length_singleton, exactMicros_concat]
    linarith
  . rw [List.length_append, List.length_singleton, exactMicros_concat]
    linarith
  . rw [exactMicros_concat]
    intro hsum
    rw [hv.eq_zero (by linarith), hw.eq_zero (by linarith), zero_add] at hround
    exact eq_zero_of_roundsTo hround
  . rintro ⟨q, hq, hmicros⟩
    have hsum : 1 ≤ v + w := by
      rcases List.mem_append.mp hq with hq | hq
      . have hone := hv.one_le ⟨q, hq, hmicros⟩
        linarith
      . rw [List.mem_singleton.mp hq] at hmicros
        have hone := hw.one_le hmicros
        linarith
    apply one_le_of_roundsTo hround
    norm_num
    linarith

theorem total_cases (ps : List Part) :
    (total (ps.map Part.amount) = .infinity false
        ∧ overflow ≤ highest ps.length (exactMicros ps))
      ∨ ∃ v, (total (ps.map Part.amount)).HasValue false v ∧ IsTotal ps v := by
  -- The last part is added to the total of those before it.
  induction ps using List.reverseRecOn with
  | nil => exact .inr ⟨0, Binary64.hasValue_zero false, isTotal_nil⟩
  | append_singleton ps p ih =>
    have ht := exactMicros_nonneg ps
    have hm := micros_nonneg p
    rw [List.map_append, List.map_singleton, total_concat, exactMicros_concat, List.length_append,
      List.length_singleton]
    rcases ih with ⟨hinfinite, hlarge⟩ | ⟨v, hv, htotal⟩
    . left
      refine ⟨?_, hlarge.trans (highest_le_highest_succ ht hm)⟩
      rcases length_cases p with ⟨hlength, -⟩ | ⟨w, hw, -⟩
      . rw [hinfinite, hlength]
        rfl
      . rw [hinfinite, Binary64.infinity_add hw]
    rcases length_cases p with ⟨hinfinite, hlarge⟩ | ⟨w, hw, hlength⟩
    . left
      refine ⟨by rw [hinfinite, hv.add_infinity], hlarge.trans ?_⟩
      exact (le_add_of_nonneg_left ht).trans (le_highest_self (add_nonneg ht hm) _)
    rcases hv.add hw with ⟨hinfinite, hlarge⟩ | ⟨z, hz, hround⟩
    . left
      refine ⟨hinfinite, ?_⟩
      have hhigh := le_highest_succ hm htotal.le_highest hlength.le_highest
      have hscaled := overflow_mul.trans hlarge
      have hpos := residue_pos.trans_le residue_le_overflow
      linarith only [hhigh, hscaled, hpos]
    . right
      rcases hv.exists_units with ⟨i, -, hi⟩
      rcases hw.exists_units with ⟨j, -, hj⟩
      have hmultiple : v + w = (i + j : Nat) * 2 ^ Binary64.minExponent := by
        rw [hi, hj, Nat.cast_add, add_mul]
      have hnear := hround.abs_sub_le_of_multiple hmultiple
      exact ⟨z, hz, htotal.concat hlength hv.nonneg hw.nonneg hround hnear⟩

/--
The sum of parts is zero, or one of them is a microsecond or more, or the sum is far enough from a
microsecond, and from the smallest numbers, that no rounding decides on which side it is.
-/
def IsClear (ps : List Part) : Prop :=
  exactMicros ps = 0 ∨ (∃ p ∈ ps, 1 ≤ p.micros) ∨ 1 ≤ lowest ps.length (exactMicros ps)
    ∨ (0 < lowest ps.length (exactMicros ps) ∧ highest ps.length (exactMicros ps) < 1)

theorem one_le_exactMicros (h : ∃ p ∈ ps, 1 ≤ p.micros) : 1 ≤ exactMicros ps := by
  rcases h with ⟨p, hp, hmicros⟩
  exact hmicros.trans (micros_le_exactMicros hp)

theorem IsTotal.short_iff {v : ℚ} (hv : IsTotal ps v) (hclear : IsClear ps) :
    0 < v ∧ v < 1 ↔ 0 < exactMicros ps ∧ exactMicros ps < 1 := by
  have ht := exactMicros_nonneg ps
  have hlow := lowest_le_self ht ps.length
  have hhigh := le_highest_self ht ps.length
  have hvLow := hv.lowest_le
  have hvHigh := hv.le_highest
  rcases hclear with hzero | hpart | hlarge | ⟨hpos, hless⟩
  . rw [hv.eq_zero hzero, hzero]
  . have hone := hv.one_le hpart
    have hone' := one_le_exactMicros hpart
    constructor
    . rintro ⟨-, h⟩
      exact absurd h hone.not_gt
    . rintro ⟨-, h⟩
      exact absurd h hone'.not_gt
  . constructor
    . rintro ⟨-, h⟩
      exact absurd h (hlarge.trans hvLow).not_gt
    . rintro ⟨-, h⟩
      exact absurd h (hlarge.trans hlow).not_gt
  . constructor
    . rintro -
      exact ⟨hpos.trans_le hlow, hhigh.trans_lt hless⟩
    . rintro -
      exact ⟨hpos.trans_le hvLow, hvHigh.trans_lt hless⟩

theorem not_short_of_overflow (h : overflow ≤ highest ps.length (exactMicros ps))
    (hclear : IsClear ps) : ¬ (0 < exactMicros ps ∧ exactMicros ps < 1) := by
  have hone : (1 : ℚ) ≤ overflow := one_le_zpow₀ one_le_two (by decide)
  rintro ⟨hpos, hless⟩
  rcases hclear with hzero | hpart | hlarge | ⟨-, hless'⟩
  . exact hpos.ne' hzero
  . exact absurd hless (one_le_exactMicros hpart).not_gt
  . exact absurd hless (hlarge.trans (lowest_le_self hpos.le ps.length)).not_gt
  . exact absurd hless' (hone.trans h).not_gt

theorem ofLength_eq_belowPrecision_iff {raw : Text} {negative : Bool} (h : x.HasValue negative q) :
    ofLength (.text raw) x = .error (.belowPrecision (Text.quoted raw)) ↔ 0 < q ∧ q < 1 := by
  rw [← h.isSmall_iff]
  unfold ofLength
  dsimp only
  constructor
  . intro hread
    by_contra hsmall
    rw [if_neg hsmall] at hread
    split at hread
    . cases hread
    . split at hread
      . cases hread
      . cases hread
  . intro hsmall
    rw [if_pos hsmall]
    rfl

end

/--
Parts with a clear sum are refused as too short just if the sum is more than zero and less than a
microsecond. The text of a zero is not refused.
-/
theorem ofValue_eq_belowPrecision_iff {raw : Text} (r : Stripped raw) :
    (r.bare = ("0" : Text) → ofValue (.text raw) = .ok zero)
      ∧ ∀ ps : List Part, ps ≠ [] → r.bare = partsText ps → IsClear ps →
        (ofValue (.text raw) = .error (.belowPrecision (Text.quoted raw)) ↔
          0 < exactMicros ps ∧ exactMicros ps < 1) := by
  refine ⟨ofText_zero r, ?_⟩
  intro ps hne hbare hclear
  have hread : ofValue (.text raw) =
      ofLength (.text raw) (r.sign.signed (total (ps.map Part.amount))) :=
    ofText_parts r hne hbare
  rw [hread]
  rcases total_cases ps with ⟨hinfinite, hlarge⟩ | ⟨v, hv, htotal⟩
  . have hrefused : ofLength (.text raw) (r.sign.signed (.infinity false)) =
        .error (.outOfRange (Text.quoted raw)) := by
      cases r.sign <;> rfl
    rw [hinfinite, hrefused]
    constructor
    . intro h
      cases h
    . intro h
      exact absurd h (not_short_of_overflow hlarge hclear)
  . rw [ofLength_eq_belowPrecision_iff (hasValue_signed hv r.sign), htotal.short_iff hclear]

def nearlyOne : List Part :=
  [⟨['9', '9', '9'], none, .nanosecond, ['n', 's'], List.all_eq_true.mp rfl, isDecimal_of_mem_none,
      .inl nofun, by decide⟩,
    ⟨['0'], some ['9'], .nanosecond, ['n', 's'], List.all_eq_true.mp rfl, List.all_eq_true.mp rfl,
      .inl nofun, by decide⟩]

theorem exactMicros_nearlyOne : exactMicros nearlyOne = 9999 / 10000 := by
  have hwhole : Text.decimalValue (['9', '9', '9'] ++ []) = 999 := by decide
  have hpointed : Text.decimalValue (['0'] ++ ['9']) = 9 := by decide
  simp only [exactMicros, nearlyOne, Part.micros, Part.value, List.map_cons, List.map_nil,
    List.sum_cons, List.sum_nil, Option.getD_none, Option.getD_some, hwhole, hpointed,
    AmountUnit.micros, List.length_nil, List.length_singleton]
  norm_num

theorem isClear_nearlyOne : IsClear nearlyOne := by
  have hresidue := residue_le
  have hη := residue_pos
  right
  right
  right
  rw [exactMicros_nearlyOne]
  show 0 < lowest 2 _ ∧ highest 2 _ < 1
  unfold lowest highest
  norm_num
  constructor
  . linarith
  . linarith

theorem ofValue_eq_belowPrecision_nearlyOne :
    partsText nearlyOne = ("999ns0.9ns" : String) ∧ IsClear nearlyOne
      ∧ exactMicros nearlyOne = 9999 / 10000
      ∧ ofValue (.text ("-999ns0.9ns" : String)) = .error (.belowPrecision "'-999ns0.9ns'") := by
  have hbare : partsText nearlyOne = ("999ns0.9ns" : String) := by decide +kernel
  have htext : Text.ofChars ([] ++ (Sign.minus.chars ++ nearlyOne.flatMap Part.chars ++ [])) =
      ("-999ns0.9ns" : String) := by decide +kernel
  have hquoted : Text.quoted ("-999ns0.9ns" : String) = "'-999ns0.9ns'" := by decide +kernel
  have hclear := isClear_nearlyOne
  have hsum := exactMicros_nearlyOne
  have hnone : ∀ c ∈ ([] : List Char), Text.isBlank c = true := nofun
  have hstripped := exists_stripped_parts hnone hnone .minus nearlyOne
  rw [htext] at hstripped
  rcases hstripped with ⟨r, -, hr⟩
  have hread := (ofValue_eq_belowPrecision_iff r).2 nearlyOne (by decide) hr hclear
  rw [hquoted, hsum] at hread
  exact ⟨hbare, hclear, hsum, hread.mpr (by norm_num)⟩

def tenths : List Part :=
  List.replicate 10 ⟨['1', '0', '0'], none, .nanosecond, ['n', 's'], List.all_eq_true.mp rfl,
    isDecimal_of_mem_none, .inl nofun, by decide⟩

def rounded : List Part :=
  [⟨['0'], some (List.replicate 20 '9'), .microsecond, ['u', 's'], List.all_eq_true.mp rfl,
    List.all_eq_true.mp rfl, .inl nofun, by decide⟩]

/-- Near to a microsecond the rounding decides, on both sides. -/
theorem ofValue_near_one :
    (exactMicros tenths = 1
        ∧ partsText tenths = ("100ns100ns100ns100ns100ns100ns100ns100ns100ns100ns" : String)
        ∧ ofValue (.text (partsText tenths)) =
          .error (.belowPrecision (Text.quoted (partsText tenths))))
      ∧ exactMicros rounded = 1 - 1 / 10 ^ 20
      ∧ partsText rounded = ("0.99999999999999999999us" : String)
      ∧ ofValue (.text (partsText rounded)) = .ok ⟨1, by decide⟩ := by
  have htenth : Text.decimalValue (['1', '0', '0'] ++ []) = 100 := by decide
  have hrounded : Text.decimalValue (['0'] ++ List.replicate 20 '9') = 10 ^ 20 - 1 := by decide
  refine ⟨⟨?_, by decide +kernel, by decide +kernel⟩, ?_, by decide +kernel, by decide +kernel⟩
  . simp only [exactMicros, tenths, Part.micros, Part.value, List.map_replicate,
      List.sum_replicate, Option.getD_none, htenth, AmountUnit.micros, List.length_nil]
    norm_num
  . simp only [exactMicros, rounded, Part.micros, Part.value, List.map_cons, List.map_nil,
      List.sum_cons, List.sum_nil, Option.getD_some, hrounded, AmountUnit.micros,
      List.length_replicate]
    norm_num

end Duration
end NodeSettings
