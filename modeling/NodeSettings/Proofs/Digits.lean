import NodeSettings.Text.Digit

/-!
This module contains what the digits of a number are, and that they write the number and are read as
it.
-/

namespace NodeSettings
namespace Text

theorem ofDigits_append (base before : Nat) (ds es : List Nat) :
    ofDigits base before (ds ++ es) = ofDigits base (ofDigits base before ds) es := by
  unfold ofDigits
  rw [List.foldl_append]

theorem ofDigits_replicate_zero (base k : Nat) (ds : List Nat) :
    ofDigits base 0 (List.replicate k 0 ++ ds) = ofDigits base 0 ds := by
  induction k with
  | zero => rfl
  | succ k ih =>
    rw [List.replicate_succ, List.cons_append]
    exact ih

theorem exists_digits_cons {base : Nat} (hbase : 1 < base) (n : Nat) :
    ∃ d ds, Nat.toDigits base n = (d :: ds).map Nat.digitChar ∧ (∀ e ∈ d :: ds, e < base)
      ∧ ofDigits base 0 (d :: ds) = n ∧ (0 < n → 0 < d) := by
  induction n using Nat.strongRecOn with
  | ind n ih =>
    rw [Nat.toDigits_eq_if hbase]
    split
    . next hn =>
      refine ⟨n, [], rfl, ?_, ?_, fun hpos => hpos⟩
      . intro d hd
        rw [List.mem_singleton] at hd
        omega
      . simp [ofDigits]
    . next hn =>
      have hpos : 0 < n := by omega
      have hleading : 0 < n / base := Nat.div_pos (by omega) (by omega)
      rcases ih (n / base) (Nat.div_lt_self hpos hbase) with ⟨d, ds, hds, hlt, hvalue, hfirst⟩
      refine ⟨d, ds ++ [n % base], ?_, ?_, ?_, fun _ => hfirst hleading⟩
      . rw [hds, ← List.cons_append, List.map_append]
        rfl
      . intro e he
        rw [← List.cons_append, List.mem_append, List.mem_singleton] at he
        rcases he with he | rfl
        . exact hlt e he
        . apply Nat.mod_lt
          omega
      . rw [← List.cons_append, ofDigits_append, hvalue]
        exact Nat.div_add_mod n base

theorem exists_digits {base : Nat} (hbase : 1 < base) (n : Nat) :
    ∃ ds, Nat.toDigits base n = ds.map Nat.digitChar ∧ (∀ d ∈ ds, d < base)
      ∧ ofDigits base 0 ds = n := by
  rcases exists_digits_cons hbase n with ⟨d, ds, hds, hlt, hvalue, -⟩
  exact ⟨d :: ds, hds, hlt, hvalue⟩

theorem decimalValue_toDigits (n : Nat) : decimalValue (Nat.toDigits 10 n) = n := by
  have hvalue : ∀ d < 10, (digitValue? (Nat.digitChar d)).getD 0 = d := by decide
  rcases exists_digits (show 1 < 10 by decide) n with ⟨ds, hds, hlt, hdigits⟩
  have hmap : (ds.map Nat.digitChar).map (fun c => (digitValue? c).getD 0) = ds := by
    rw [List.map_map]
    exact (List.map_congr_left fun d hd => hvalue d (hlt d hd)).trans (List.map_id _)
  rw [decimalValue, hds, hmap, hdigits]

theorem length_hexadecimal {width n : Nat} (h : n < Nat.pow 16 width) (hwidth : 0 < width) :
    (hexadecimal width n).length = width := by
  have hlength := (Nat.length_toDigits_le_iff (b := 16) (by decide) hwidth).mpr h
  simp only [hexadecimal, List.length_append, List.length_replicate]
  omega

theorem exists_digits_hexadecimal (width n : Nat) :
    ∃ ds, hexadecimal width n = ds.map Nat.digitChar ∧ (∀ d ∈ ds, d < 16)
      ∧ ofDigits 16 0 ds = n := by
  rcases exists_digits (show 1 < 16 by decide) n with ⟨ds, hds, hlt, hvalue⟩
  refine ⟨List.replicate (width - ds.length) 0 ++ ds, ?_, ?_, ?_⟩
  . rw [hexadecimal, hds, List.length_map, List.map_append, List.map_replicate]
    rfl
  . intro d hd
    rw [List.mem_append, List.mem_replicate] at hd
    rcases hd with ⟨-, rfl⟩ | hd
    . decide
    . exact hlt d hd
  . rw [ofDigits_replicate_zero, hvalue]

theorem mapM_hexValue? {write : Nat → Char} (hwrite : ∀ d < 16, hexValue? (write d) = some d)
    {ds : List Nat} (h : ∀ d ∈ ds, d < 16) : (ds.map write).mapM hexValue? = some ds := by
  induction ds with
  | nil => rfl
  | cons d ds ih =>
    have hd := hwrite d (h d (.head _))
    rw [List.map_cons, List.mapM_cons, hd, ih]
    . rfl
    . intro e he
      exact h e (.tail _ he)

end Text

end NodeSettings
