import Mathlib.Data.List.TakeWhile
import NodeSettings.Proofs.Digits
import NodeSettings.Proofs.Literal
import NodeSettings.Proofs.Yaml.Scalar
import NodeSettings.Yaml.ScalarValue

/-!
This module contains the decimal texts of integers: without quotes they have the form of an integer,
and they are read back as the integer.
-/

namespace NodeSettings
namespace Yaml

def signed (negative : Bool) (cs : List Char) : List Char :=
  if negative then '-' :: cs else cs

def digitText (ds : List Nat) : List Char :=
  ds.map Nat.digitChar

structure IsWhole (d : Nat) (ds : List Nat) : Prop where
  leading : 0 < d
  digits : ∀ e ∈ d :: ds, e < 10

variable {d : Nat} {ds : List Nat} {a : Char}

theorem digitText_cons (d : Nat) (ds : List Nat) :
    digitText (d :: ds) = Nat.digitChar d :: digitText ds := rfl

theorem forall_mem_digitText {P : Char → Prop} (hP : ∀ e < 10, P (Nat.digitChar e))
    (h : ∀ e ∈ ds, e < 10) : ∀ a ∈ digitText ds, P a := by
  intro a ha
  rcases List.mem_map.mp ha with ⟨e, he, rfl⟩
  exact hP e (h e he)

theorem isDecimalPlace_digitText (h : ∀ e ∈ ds, e < 10) :
    ∀ a ∈ digitText ds, Tag.isDecimalPlace a = true :=
  forall_mem_digitText (by decide) h

theorem hasInnerIndicator_of_forall {cs : List Char} (h : ∀ a ∈ cs, a ≠ ':' ∧ a ≠ '#') :
    Style.hasInnerIndicator cs = false := by
  induction cs with
  | nil => rfl
  | cons a cs ih =>
    cases cs with
    | nil => rfl
    | cons b cs =>
      have hb := h b (.tail _ (.head _))
      rw [Style.hasInnerIndicator, ih fun a ha => h a (.tail _ ha)]
      simp [hb]

namespace IsWhole

variable (h : IsWhole d ds) (negative : Bool)
include h

theorem lt : d < 10 :=
  h.digits d (.head _)

theorem tail : ∀ e ∈ ds, e < 10 :=
  fun e he => h.digits e (.tail _ he)

theorem forall_mem {P : Char → Prop} (hsign : P '-') (hP : ∀ e < 10, P (Nat.digitChar e)) :
    ∀ a ∈ signed negative (digitText (d :: ds)), P a := by
  intro a ha
  have hdigits := forall_mem_digitText hP h.digits
  cases negative with
  | true =>
    rcases List.mem_cons.mp ha with rfl | ha
    . exact hsign
    . exact hdigits a ha
  | false => exact hdigits a ha

theorem exists_cons : ∃ a cs, signed negative (digitText (d :: ds)) = a :: cs
    ∧ (a = '-' ∨ ∃ e < 10, 0 < e ∧ a = Nat.digitChar e) := by
  cases negative with
  | true => exact ⟨_, _, rfl, .inl rfl⟩
  | false => exact ⟨_, _, rfl, .inr ⟨d, h.lt, h.leading, rfl⟩⟩

theorem dropSign : Tag.dropSign (signed negative (digitText (d :: ds))) = digitText (d :: ds) := by
  have hd : ∀ e < 10, Nat.digitChar e ≠ '+' ∧ Nat.digitChar e ≠ '-' := by decide
  cases negative with
  | true => rfl
  | false =>
    show Tag.dropSign (Nat.digitChar d :: digitText ds) = _
    unfold Tag.dropSign
    split
    . next heq => exact absurd (List.cons.inj heq).1 (hd d h.lt).1
    . next heq => exact absurd (List.cons.inj heq).1 (hd d h.lt).2
    . rfl

theorem isFloat : Tag.isFloat (signed negative (digitText (d :: ds))) = false := by
  have hdrop : (digitText ds).dropWhile Tag.isDecimalPlace = [] := by
    rw [List.dropWhile_eq_nil_iff]
    exact isDecimalPlace_digitText h.tail
  have hdot : ∀ e < 10, Nat.digitChar e ≠ '.' := by decide
  have hword (cs : List Char) (words : List String)
      (hwords : ∀ w ∈ words, w.toList.head? = some '.') (hcs : cs.head? ≠ some '.') :
      words.contains (String.ofList cs) = false := by
    rw [List.contains_eq_mem, decide_eq_false_iff_not]
    intro hmem
    apply hcs
    rw [← hwords _ hmem, String.toList_ofList]
  unfold Tag.isFloat
  rw [h.dropSign]
  dsimp only
  have hhead : (signed negative (digitText (d :: ds))).head? ≠ some '.' := by
    rcases h.exists_cons negative with ⟨a, cs, hcs, ha⟩
    rw [hcs, List.head?_cons, ne_eq, Option.some.injEq]
    rcases ha with rfl | ⟨e, he, -, rfl⟩
    . decide
    . exact hdot e he
  rw [digitText_cons, hword _ _ (by decide) (by simp [hdot d h.lt]), if_neg (by simp),
    ← digitText_cons, hword _ _ (by decide) hhead, if_neg (by simp), digitText_cons]
  split
  . next heq => exact absurd (List.cons.inj heq).1 (hdot d h.lt)
  . next heq =>
    cases heq
    rw [hdrop]
    exact Bool.and_false _
  . next heq => cases heq

theorem isInteger : Tag.isInteger (signed negative (digitText (d :: ds))) = true := by
  have hplaces : (digitText ds).all Tag.isDecimalPlace = true := by
    rw [List.all_eq_true]
    exact isDecimalPlace_digitText h.tail
  have hleading : ∀ e < 10, 0 < e → Nat.digitChar e ≠ '0' ∧ '1' ≤ Nat.digitChar e
      ∧ Nat.digitChar e ≤ '9' := by
    decide
  have hd := hleading d h.lt h.leading
  unfold Tag.isInteger
  rw [h.dropSign, digitText_cons]
  split
  . next heq => exact absurd (List.cons.inj heq).1 hd.1
  . next heq => exact absurd (List.cons.inj heq).1 hd.1
  . next heq => exact absurd (List.cons.inj heq).1 hd.1
  . next heq =>
    cases heq
    simp [hd.2, hplaces]
  . next heq => cases heq

theorem ofPlain : Tag.ofPlain (signed negative (digitText (d :: ds))) = .int := by
  have hlast : Tag.dropLastBreak (signed negative (digitText (d :: ds))) =
      signed negative (digitText (d :: ds)) := by
    unfold Tag.dropLastBreak
    rw [if_neg]
    rw [beq_iff_eq]
    intro heq
    exact h.forall_mem negative (P := (· ≠ '\n')) (by decide) (by decide) _
      (List.mem_of_getLast? heq) rfl
  have hword : ∀ e < 10, "yYnNtTfFoO".toList.contains (Nat.digitChar e) = false := by decide
  have hsign : ∀ e < 10, "-+0123456789".toList.contains (Nat.digitChar e) = true := by decide
  rcases h.exists_cons negative with ⟨a, cs, hcs, ha⟩
  -- The first character says that it can only be a number.
  have hbegins : "yYnNtTfFoO".toList.contains a = false
      ∧ "-+0123456789".toList.contains a = true := by
    rcases ha with rfl | ⟨e, he, -, rfl⟩
    . decide
    . exact ⟨hword e he, hsign e he⟩
  have hfloat := h.isFloat negative
  have hinteger := h.isInteger negative
  unfold Tag.ofPlain
  dsimp only
  rw [hlast, hfloat, hinteger, hcs, List.head?_cons, if_neg, if_neg, if_pos]
  . rw [Bool.and_true]
    exact hbegins.2
  . simp
  . rw [Option.any_some, hbegins.1]
    simp

theorem looksLikeMark :
    Style.looksLikeMark (signed negative (digitText (d :: ds))) = false := by
  have hmark : ∀ e < 10, Nat.digitChar e ≠ '-' ∧ Nat.digitChar e ≠ '.' := by decide
  cases negative with
  | true =>
    show Style.looksLikeMark ('-' :: Nat.digitChar d :: digitText ds) = false
    unfold Style.looksLikeMark
    split
    . next heq => exact absurd (List.cons.inj (List.cons.inj heq).2).1 (hmark d h.lt).1
    . next heq => cases heq
    . rfl
  | false =>
    show Style.looksLikeMark (Nat.digitChar d :: digitText ds) = false
    unfold Style.looksLikeMark
    split
    . next heq => exact absurd (List.cons.inj heq).1 (hmark d h.lt).1
    . next heq => exact absurd (List.cons.inj heq).1 (hmark d h.lt).2
    . rfl

theorem hasLeadingIndicator :
    Style.hasLeadingIndicator (signed negative (digitText (d :: ds))) = false := by
  have hblank : ∀ e < 10, (isBlank (Nat.digitChar e) || isBreak (Nat.digitChar e)) = false := by
    decide
  have hsigns : ∀ e < 10, "#,[]\x7b\x7d&*!|>'\"%@`".toList.contains (Nat.digitChar e) = false
      ∧ Nat.digitChar e ≠ '?' ∧ Nat.digitChar e ≠ ':' ∧ Nat.digitChar e ≠ '-' := by
    decide
  cases negative with
  | true =>
    show Style.hasLeadingIndicator ('-' :: Nat.digitChar d :: digitText ds) = false
    rw [Style.hasLeadingIndicator, endsWord, hblank d h.lt]
    decide
  | false =>
    show Style.hasLeadingIndicator (Nat.digitChar d :: digitText ds) = false
    have hd := hsigns d h.lt
    rw [Style.hasLeadingIndicator, hd.1]
    simp [hd.2]

theorem allowsPlain : Style.allowsPlain (signed negative (digitText (d :: ds))) = true := by
  have hplain := h.forall_mem negative (P := fun a => Style.isPrintableAscii a = true
    ∧ Style.isWrittenBreak a = false ∧ a ≠ ' ' ∧ a ≠ ':' ∧ a ≠ '#') (by decide) (by decide)
  unfold Style.allowsPlain
  rw [Bool.not_eq_true']
  simp only [Bool.or_eq_false_iff]
  refine ⟨⟨⟨⟨⟨⟨?_, ?_⟩, ?_⟩, ?_⟩, ?_⟩, ?_⟩, ?_⟩
  . unfold Style.hasSpecial
    rw [List.any_eq_false]
    intro a ha
    simp [(hplain a ha).1]
  . unfold Style.isMultiline
    rw [List.any_eq_false]
    intro a ha
    simp [(hplain a ha).2.1]
  . rw [beq_eq_false_iff_ne]
    intro heq
    exact (hplain _ (List.mem_of_head? heq)).2.2.1 rfl
  . rw [beq_eq_false_iff_ne]
    intro heq
    exact (hplain _ (List.mem_of_getLast? heq)).2.2.1 rfl
  . exact h.looksLikeMark negative
  . exact h.hasLeadingIndicator negative
  . apply hasInnerIndicator_of_forall
    intro a ha
    exact (hplain a ha).2.2.2

end IsWhole

theorem numeral_digitText (h : ∀ e ∈ ds, e < 10) :
    Text.numeral ((digitText ds).map .char) = digitText ds := by
  have hchar := forall_mem_digitText (P := fun a => Text.numeralChar (.char a) = a) (by decide) h
  have hblank := forall_mem_digitText (P := fun a => Text.isNumeralBlank a = false) (by decide) h
  have hdrop {cs : List Char} (hcs : ∀ a ∈ cs, Text.isNumeralBlank a = false) :
      cs.dropWhile Text.isNumeralBlank = cs := by
    cases cs with
    | nil => rfl
    | cons a cs => rw [List.dropWhile_cons_of_neg (by simp [hcs a (.head _)])]
  have hmap : ((digitText ds).map .char).map Text.numeralChar = digitText ds := by
    rw [List.map_map]
    exact (List.map_congr_left hchar).trans (List.map_id _)
  unfold Text.numeral
  dsimp only
  rw [hmap, hdrop hblank, hdrop fun a ha => hblank a (List.mem_reverse.mp ha), List.reverse_reverse]

theorem map_digitInBase?_digitText (h : ∀ e ∈ ds, e < 10) :
    (digitText ds).map (digitInBase? 10) = ds.map some := by
  have hdigit : ∀ e < 10, digitInBase? 10 (Nat.digitChar e) = some e := by decide
  unfold digitText
  rw [List.map_map]
  exact List.map_congr_left fun e he => hdigit e (h e he)

namespace IsWhole

variable (h : IsWhole d ds)
include h

theorem parseInteger (hlength : (d :: ds).length ≤ maxDigits) :
    parseInteger 10 ((digitText (d :: ds)).map .char) = .ok (Text.ofDigits 10 0 (d :: ds)) := by
  have hmark : ∀ e < 10, 0 < e → Nat.digitChar e ≠ '0' ∧ Nat.digitChar e ≠ '-' := by decide
  have hd := hmark d h.lt h.leading
  have hunmarked : dropBaseMark 10 (digitText (d :: ds)) = digitText (d :: ds) := by
    rw [digitText_cons]
    unfold dropBaseMark
    split
    . next heq => exact absurd (List.cons.inj heq).1 hd.1
    . rfl
  have hall : ((d :: ds).map some).takeWhile Option.isSome = (d :: ds).map some := by
    rw [List.takeWhile_eq_self_iff]
    intro o ho
    rcases List.mem_map.mp ho with ⟨e, -, rfl⟩
    rfl
  have hvalues : ((d :: ds).map some).map (fun o => o.getD 0) = d :: ds := by
    rw [List.map_map]
    exact List.map_id _
  have hsign : Tag.dropSign (digitText (d :: ds)) = digitText (d :: ds) := h.dropSign false
  unfold Yaml.parseInteger
  dsimp only
  rw [numeral_digitText h.digits, hsign, hunmarked, map_digitInBase?_digitText h.digits, hall,
    hvalues]
  -- All characters are digits, few enough, and no sign is left in front of them.
  have hshort : ¬ maxDigits < ((d :: ds).map some).length := by
    rw [List.length_map]
    omega
  have hsame : ((d :: ds).map some).length = (digitText (d :: ds)).length := by
    rw [digitText, List.length_map, List.length_map]
  have hpositive : ((digitText (d :: ds)).head? == some '-') = false := by
    rw [digitText_cons]
    simp [hd.2]
  rw [if_neg (by simpa using hshort), hsame, hpositive]
  simp

variable (negative : Bool)

theorem dropUnderlines_points :
    dropUnderlines (Text.ofChars (signed negative (digitText (d :: ds)))).points =
      (signed negative (digitText (d :: ds))).map .char := by
  have hplain := h.forall_mem negative (P := fun a => a ≠ '_') (by decide) (by decide)
  unfold dropUnderlines Text.ofChars
  rw [List.filter_eq_self]
  intro p hp
  rcases List.mem_map.mp hp with ⟨a, ha, rfl⟩
  simp [hplain a ha]

theorem dropSign_points :
    Yaml.dropSign ((signed negative (digitText (d :: ds))).map .char) =
      (digitText (d :: ds)).map .char := by
  have hmark : ∀ e < 10, Nat.digitChar e ≠ '-' ∧ Nat.digitChar e ≠ '+' := by decide
  have hd := hmark d h.lt
  cases negative with
  | true => rfl
  | false =>
    show Yaml.dropSign (.char (Nat.digitChar d) :: (digitText ds).map .char) = _
    unfold Yaml.dropSign
    split
    . next heq => exact absurd (CodePoint.char.inj (List.cons.inj heq).1) hd.2
    . next heq => exact absurd (CodePoint.char.inj (List.cons.inj heq).1) hd.1
    . rfl

theorem isNegative_points :
    isNegative ((signed negative (digitText (d :: ds))).map .char) = negative := by
  have hmark : ∀ e < 10, Nat.digitChar e ≠ '-' := by decide
  cases negative with
  | true => rfl
  | false =>
    show (some (CodePoint.char (Nat.digitChar d)) == some (.char '-')) = false
    simp [hmark d h.lt]

theorem integerValue (hlength : (d :: ds).length ≤ maxDigits) :
    Yaml.integerValue (Text.ofChars (signed negative (digitText (d :: ds)))) =
      .ok (if negative then -(Text.ofDigits 10 0 (d :: ds) : Int)
        else Text.ofDigits 10 0 (d :: ds)) := by
  have hempty : ((signed negative (digitText (d :: ds))).map CodePoint.char).isEmpty = false := by
    cases negative <;> rfl
  have hcolon : ((digitText (d :: ds)).map CodePoint.char).contains (.char ':') = false := by
    rw [List.contains_eq_mem, decide_eq_false_iff_not]
    intro hmem
    rcases List.mem_map.mp hmem with ⟨a, ha, heq⟩
    exact forall_mem_digitText (P := (· ≠ ':')) (by decide) h.digits a ha (CodePoint.char.inj heq)
  -- No sign of another base stands in front of the digits.
  have hleading : ∀ e < 10, 0 < e → Nat.digitChar e ≠ '0' := by decide
  have hfirst (rest : List CodePoint) :
      (digitText (d :: ds)).map CodePoint.char ≠ .char '0' :: rest := by
    intro heq
    exact hleading d h.lt h.leading (CodePoint.char.inj (List.cons.inj heq).1)
  have hvalue := h.parseInteger hlength
  unfold Yaml.integerValue
  dsimp only
  rw [h.dropUnderlines_points, hempty, if_neg (by simp), h.dropSign_points, h.isNegative_points]
  split
  . next heq => cases heq
  . next heq => exact absurd heq (hfirst _)
  . next heq => exact absurd heq (hfirst _)
  . next heq => exact absurd heq (hfirst _)
  . next heq => exact absurd heq (hfirst _)
  . rw [hcolon, if_neg (by simp), hvalue]
    rfl

end IsWhole

theorem isPlain_of_ofPlain {tag : Tag} {cs : List Char} (htag : Tag.ofPlain cs = tag)
    (hplain : Style.allowsPlain cs = true) : isPlain tag (.ofChars cs) = true := by
  unfold isPlain
  rw [Text.chars?_ofChars]
  dsimp only
  rw [decide_eq_true_eq, choose_eq_plain_iff]
  exact ⟨htag, hplain⟩

theorem exists_whole {n : Int} (hn : n ≠ 0) : ∃ d ds, IsWhole d ds
    ∧ Text.integer n = String.ofList (signed (n < 0) (digitText (d :: ds)))
    ∧ Nat.toDigits 10 n.natAbs = digitText (d :: ds) ∧ Text.ofDigits 10 0 (d :: ds) = n.natAbs := by
  rcases Text.exists_digits_cons (show 1 < 10 by decide) n.natAbs with
    ⟨d, ds, hdigits, hlt, hvalue, hleading⟩
  refine ⟨d, ds, ⟨hleading (by omega), hlt⟩, ?_, hdigits, hvalue⟩
  cases n with
  | ofNat n =>
    have hnegative : decide (Int.ofNat n < 0) = false := by simp
    rw [hnegative]
    exact congrArg String.ofList hdigits
  | negSucc n =>
    have hnegative : decide (Int.negSucc n < 0) = true := by simp
    rw [hnegative]
    apply String.toList_injective
    show ("-" ++ String.ofList (Nat.toDigits 10 (n + 1))).toList = _
    simp only [String.toList_append, String.toList_ofList]
    exact congrArg (['-'] ++ ·) hdigits

theorem length_toDigits_le {n : Int} (h : n.natAbs < Nat.pow 10 maxDigits) :
    (Nat.toDigits 10 n.natAbs).length ≤ maxDigits := by
  -- The power of ten is never computed.
  have hlt {k m : Nat} (h : m < Nat.pow 10 k) : m < 10 ^ k := h
  rw [Nat.length_toDigits_le_iff (by decide) (by decide)]
  exact hlt h

theorem isReadable_integer {n : Int} {s : String} (h : integerText n = .ok s) :
    IsReadable .int (s : Text) ∧ ∀ mark, scalarValue .int mark (s : Text) = .ok (.integer n) := by
  rw [integerText_eq_ok_iff] at h
  rcases h with ⟨hshort, rfl⟩
  have hlength := length_toDigits_le hshort
  by_cases hzero : n = 0
  . subst hzero
    refine ⟨.inr ⟨by decide, by decide⟩, fun mark => rfl⟩
  . rcases exists_whole hzero with ⟨d, ds, hwhole, htext, hdigits, hvalue⟩
    have hchars : ((Text.integer n : String) : Text) =
        Text.ofChars (signed (n < 0) (digitText (d :: ds))) := by
      rw [htext, Text.ofString, String.toList_ofList]
    rw [hdigits, digitText, List.length_map] at hlength
    rw [hchars]
    refine ⟨.inr ⟨by decide, isPlain_of_ofPlain (hwhole.ofPlain _) (hwhole.allowsPlain _)⟩, ?_⟩
    intro mark
    unfold scalarValue
    dsimp only
    rw [hwhole.integerValue _ hlength, hvalue]
    show Except.ok (Value.integer _) = _
    congr 2
    split
    . next hn =>
      rw [decide_eq_true_eq] at hn
      omega
    . next hn =>
      rw [decide_eq_true_eq] at hn
      omega

end Yaml
end NodeSettings
