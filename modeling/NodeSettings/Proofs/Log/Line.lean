import NodeSettings.Log.Record
import NodeSettings.Proofs.Digits
import NodeSettings.Proofs.Except
import NodeSettings.Text.Lines

/-!
This module contains that a log line is printable ASCII: whatever a record has in it, the line has
no line break.
-/

namespace NodeSettings

def IsPlain (cs : List Char) : Prop :=
  ∀ c ∈ cs, 32 ≤ c.toNat ∧ c.toNat < 127

instance (cs : List Char) : Decidable (IsPlain cs) :=
  List.decidableBAll _ cs

namespace IsPlain

variable {cs ds : List Char} {c : Char}

theorem cons (hc : 32 ≤ c.toNat ∧ c.toNat < 127) (h : IsPlain cs) : IsPlain (c :: cs) := by
  intro d hd
  rw [List.mem_cons] at hd
  rcases hd with rfl | hd
  . exact hc
  . exact h d hd

theorem append (hcs : IsPlain cs) (hds : IsPlain ds) : IsPlain (cs ++ ds) := by
  intro c hc
  rw [List.mem_append] at hc
  rcases hc with hc | hc
  . exact hcs c hc
  . exact hds c hc

theorem subset (h : IsPlain cs) (hds : ds ⊆ cs) : IsPlain ds :=
  fun c hc => h c (hds hc)

theorem replicate (hc : 32 ≤ c.toNat ∧ c.toNat < 127) (n : Nat) : IsPlain (List.replicate n c) := by
  intro d hd
  rw [List.eq_of_mem_replicate hd]
  exact hc

theorem flatMap {α : Type} {xs : List α} {f : α → List Char} (h : ∀ x ∈ xs, IsPlain (f x)) :
    IsPlain (xs.flatMap f) := by
  intro c hc
  rw [List.mem_flatMap] at hc
  rcases hc with ⟨x, hx, hc⟩
  exact h x hx c hc

theorem not_endsLine (h : IsPlain cs) : ∀ c ∈ cs, Text.endsLine c = false := by
  intro c hc
  have hplain := h c hc
  simp only [Text.endsLine, Bool.or_eq_false_iff, Bool.and_eq_false_iff, decide_eq_false_iff_not,
    beq_eq_false_iff_ne]
  omega

end IsPlain

theorem isPlain_toDigits {base : Nat} (hbase : 1 < base) (hle : base ≤ 16) (n : Nat) :
    IsPlain (Nat.toDigits base n) := by
  have hdigit : ∀ d < 16, 32 ≤ (Nat.digitChar d).toNat ∧ (Nat.digitChar d).toNat < 127 := by
    decide
  rcases Text.exists_digits hbase n with ⟨ds, hds, hlt, -⟩
  rw [hds]
  intro c hc
  rw [List.mem_map] at hc
  rcases hc with ⟨d, hd, rfl⟩
  exact hdigit d (Nat.lt_of_lt_of_le (hlt d hd) hle)

theorem isPlain_hexadecimal (width n : Nat) : IsPlain (Text.hexadecimal width n) := by
  apply IsPlain.append
  . exact .replicate (by decide) _
  . exact isPlain_toDigits (by omega) (by omega) n

theorem isPlain_padded (width n : Nat) : IsPlain (Text.padded width n).toList := by
  rw [Text.padded, String.toList_ofList]
  apply IsPlain.append
  . exact .replicate (by decide) _
  . exact isPlain_toDigits (by omega) (by omega) n

theorem isPlain_decimal (n : Nat) : IsPlain (Text.decimal n).toList := by
  rw [Text.decimal, String.toList_ofList]
  exact isPlain_toDigits (by omega) (by omega) n

theorem isPlain_integer (n : Int) : IsPlain (Text.integer n).toList := by
  cases n with
  | ofNat n => exact isPlain_decimal n
  | negSucc n =>
    rw [Text.integer, String.toList_append]
    exact .append (by decide) (isPlain_decimal _)

namespace Binary64

theorem isPlain_dropZeros {digits : List Char} (h : IsPlain digits) :
    IsPlain (dropZeros digits) := by
  apply h.subset
  intro c hc
  rw [dropZeros, List.mem_reverse] at hc
  exact List.mem_reverse.mp ((List.dropWhile_suffix _).subset hc)

theorem isPlain_text (x : Binary64) : IsPlain x.text.toList := by
  cases x with
  | nan => decide
  | infinity negative =>
    cases negative with
    | true => decide
    | false => decide
  | finite negative s e =>
    have hsign (body : List Char) (h : IsPlain body) :
        IsPlain (if negative then '-' :: body else body) := by
      cases negative with
      | true => exact .cons (by decide) h
      | false => exact h
    rw [text, String.toList_ofList]
    apply hsign
    split
    . decide
    . rcases shortest s e with ⟨n, place⟩
      dsimp only
      have hdigits : IsPlain (dropZeros (Nat.toDigits 10 n)) :=
        isPlain_dropZeros (isPlain_toDigits (by omega) (by omega) n)
      generalize dropZeros (Nat.toDigits 10 n) = digits at hdigits ⊢
      have htake (k : Nat) : IsPlain (digits.take k) := hdigits.subset (List.take_subset k digits)
      have hdrop (k : Nat) : IsPlain (digits.drop k) := hdigits.subset (List.drop_subset k digits)
      split
      . exact .append (.append (by decide) (.replicate (by decide) _)) hdigits
      . split
        . apply IsPlain.append
          . exact .append (htake _) (.replicate (by decide) _)
          . apply IsPlain.cons (by decide)
            split
            . decide
            . exact hdrop _
        . apply IsPlain.append
          . apply IsPlain.append
            . apply IsPlain.append (htake 1)
              split
              . decide
              . exact .cons (by decide) (hdrop 1)
            . split
              . decide
              . decide
          . exact isPlain_padded 2 _

end Binary64

namespace Json

theorem isPlain_unitEscape (n : Nat) : IsPlain (unitEscape n) :=
  .cons (by decide) (.cons (by decide) (isPlain_hexadecimal 4 n))

theorem isPlain_encodeChar (c : Char) : IsPlain (encodeChar c) := by
  unfold encodeChar
  split
  . next h =>
    rw [Bool.or_eq_true, beq_iff_eq, beq_iff_eq] at h
    rcases h with rfl | rfl
    . decide
    . decide
  . split
    . decide
    . split
      . decide
      . split
        . decide
        . split
          . decide
          . split
            . decide
            . split
              . next h => exact .cons (by simpa using h) (by decide)
              . split
                . apply isPlain_unitEscape
                . exact .append (isPlain_unitEscape _) (isPlain_unitEscape _)

theorem isPlain_encodePoint (p : CodePoint) : IsPlain (encodePoint p) := by
  cases p with
  | char c => apply isPlain_encodeChar
  | surrogate n => apply isPlain_unitEscape

theorem isPlain_encodeText (t : Text) : IsPlain (encodeText t) := by
  apply IsPlain.append
  . apply IsPlain.cons (by decide)
    apply IsPlain.flatMap
    intro p hp
    apply isPlain_encodePoint
  . decide

theorem isPlain_integerText {n : Int} {s : String} (h : integerText n = .ok s) :
    IsPlain s.toList := by
  unfold integerText NodeSettings.integerText at h
  split at h
  . cases h
  . cases h
    apply isPlain_integer

theorem isPlain_floatText (x : Binary64) : IsPlain (floatText x).toList := by
  unfold floatText
  split
  . decide
  . split
    . decide
    . decide
  . apply Binary64.isPlain_text

theorem isPlain_commaSeparated {parts : List (List Char)} (h : ∀ part ∈ parts, IsPlain part) :
    IsPlain (commaSeparated parts) := by
  induction parts with
  | nil => decide
  | cons part parts ih =>
    cases parts with
    | nil => exact h part (.head _)
    | cons next parts =>
      apply IsPlain.append (h part (.head _))
      exact .cons (by decide) (ih fun p hp => h p (.tail _ hp))

mutual

theorem isPlain_encode (v : Value) {cs : List Char} (h : encode v = .ok cs) : IsPlain cs := by
  cases v with
  | null =>
    rw [encode] at h
    rw [← Except.ok.inj h]
    decide
  | boolean b =>
    rw [encode] at h
    rw [← Except.ok.inj h]
    cases b <;> decide
  | integer n =>
    rw [encode, Except.bind_eq_ok_iff] at h
    rcases h with ⟨s, hs, h⟩
    rw [← Except.ok.inj h]
    exact isPlain_integerText hs
  | float x =>
    rw [encode] at h
    rw [← Except.ok.inj h]
    apply isPlain_floatText
  | undefined mark =>
    rw [encode] at h
    rw [← Except.ok.inj h]
    apply isPlain_floatText
  | text t =>
    rw [encode] at h
    rw [← Except.ok.inj h]
    apply isPlain_encodeText
  | list items | tuple items =>
    rw [encode, Except.bind_eq_ok_iff] at h
    rcases h with ⟨parts, hparts, h⟩
    rw [← Except.ok.inj h]
    have hinner := isPlain_commaSeparated (isPlain_encodeItems items hparts)
    exact .append (.cons (by decide) hinner) (by decide)
  | map entries =>
    rw [encode, Except.bind_eq_ok_iff] at h
    rcases h with ⟨parts, hparts, h⟩
    rw [← Except.ok.inj h]
    have hinner := isPlain_commaSeparated (isPlain_encodeEntries entries hparts)
    exact .append (.cons (by decide) hinner) (by decide)
  | duration d | foreign o | bytes octets | date d | moment m | set items =>
    simp only [encode] at h
    split at h
    . rw [← Except.ok.inj h]
      apply isPlain_encodeText
    . cases h

theorem isPlain_encodeItems (items : List Value) {parts : List (List Char)}
    (h : encodeItems items = .ok parts) : ∀ part ∈ parts, IsPlain part := by
  cases items with
  | nil =>
    rw [encodeItems] at h
    rw [← Except.ok.inj h]
    simp
  | cons x xs =>
    rw [encodeItems, Except.bind_eq_ok_iff] at h
    rcases h with ⟨cs, hcs, h⟩
    rw [Except.bind_eq_ok_iff] at h
    rcases h with ⟨rest, hrest, h⟩
    rw [← Except.ok.inj h]
    intro part hpart
    rw [List.mem_cons] at hpart
    rcases hpart with rfl | hpart
    . exact isPlain_encode x hcs
    . exact isPlain_encodeItems xs hrest part hpart

theorem isPlain_encodeEntries (entries : List (Value × Value)) {parts : List (List Char)}
    (h : encodeEntries entries = .ok parts) : ∀ part ∈ parts, IsPlain part := by
  cases entries with
  | nil =>
    rw [encodeEntries] at h
    rw [← Except.ok.inj h]
    simp
  | cons first rest =>
    rcases first with ⟨k, x⟩
    rw [encodeEntries, Except.bind_eq_ok_iff] at h
    rcases h with ⟨key, hkey, h⟩
    rw [Except.bind_eq_ok_iff] at h
    rcases h with ⟨cs, hcs, h⟩
    rw [Except.bind_eq_ok_iff] at h
    rcases h with ⟨more, hmore, h⟩
    rw [← Except.ok.inj h]
    intro part hpart
    rw [List.mem_cons] at hpart
    rcases hpart with rfl | hpart
    . exact .append (isPlain_encodeText key) (.cons (by decide) (isPlain_encode x hcs))
    . exact isPlain_encodeEntries rest hmore part hpart

end

end Json

namespace Log

theorem Record.isPlain_line {r : Record} {stamp line : String} {service : Text}
    (h : r.line stamp service = .ok line) : IsPlain line.toList := by
  unfold Record.line at h
  rw [Except.bind_eq_ok_iff] at h
  rcases h with ⟨fields, -, h⟩
  rw [Except.bind_eq_ok_iff] at h
  rcases h with ⟨cs, hcs, h⟩
  rw [Except.mapError_eq_ok_iff] at hcs
  rw [← Except.ok.inj h, String.toList_ofList]
  exact Json.isPlain_encode _ hcs

end Log
end NodeSettings
