import NodeSettings.Proofs.Text
import NodeSettings.Proofs.Yaml.DoubleQuoted
import NodeSettings.Proofs.Yaml.Encoding
import NodeSettings.Proofs.Yaml.PlainScalar
import NodeSettings.Proofs.Yaml.SingleQuoted
import NodeSettings.Yaml.Compose
import NodeSettings.Yaml.Layout

/-!
This module contains the scalars that are read back as what they are, and the forms that they are
written in.
-/

namespace NodeSettings
namespace Yaml

variable {tag : Tag} {text : Text} {cs : List Char} {c : Char} {indent column : Nat}

def isPlain (tag : Tag) (text : Text) : Bool :=
  match text.chars? with
  | some cs => Style.choose false tag cs = .plain
  | none => false

def IsReadable (tag : Tag) (text : Text) : Prop :=
  tag = .str ∨ (tag ≠ .null ∧ isPlain tag text = true)

inductive Form (text : Text) (indent column : Nat) : Bool → List Char → Prop where
  | plain {cs : List Char} (htext : text = .ofChars cs) (hwords : Words cs)
    (hleading : Style.hasLeadingIndicator cs = false) :
    Form text indent column true (Style.writePlain true indent 0 column cs)
  | single {cs : List Char} (htext : text = .ofChars cs) (hsingle : Style.allowsSingle cs = true) :
    Form text indent column false
      ('\'' :: Style.writeSingle true indent false (.spaces 0) (column + 1) cs)
  | double :
    Form text indent column false
      ('"' :: Style.writeDouble true indent false false (column + 1) text.points)

theorem hasLeadingIndicator_of_allowsPlain (h : Style.allowsPlain cs = true) :
    Style.hasLeadingIndicator cs = false := by
  unfold Style.allowsPlain at h
  simp only [Bool.not_eq_true', Bool.or_eq_false_iff] at h
  exact h.1.2

theorem choose_eq_plain_iff :
    Style.choose false tag cs = .plain ↔ Tag.ofPlain cs = tag ∧ Style.allowsPlain cs = true := by
  unfold Style.choose
  simp only [Bool.not_false, Bool.true_or, Bool.and_true, Bool.and_eq_true, decide_eq_true_eq]
  split
  . next h => simpa using h
  . next h =>
    constructor
    . intro hplain
      split at hplain <;> cases hplain
    . intro hplain
      exact absurd hplain h

theorem ofPlain_eq (h : isPlain tag text = true) : Tag.ofText text = tag := by
  cases hchars : text.chars? with
  | none =>
    rw [isPlain, hchars] at h
    cases h
  | some cs =>
    rw [isPlain, hchars] at h
    dsimp only at h
    rw [decide_eq_true_eq, choose_eq_plain_iff] at h
    rw [Tag.ofText, hchars]
    exact h.1

theorem scalarTag_isPlain (h : IsReadable tag text) :
    Compose.scalarTag none (isPlain tag text) text = tag := by
  unfold Compose.scalarTag
  dsimp only
  cases hplain : isPlain tag text with
  | true => exact ofPlain_eq hplain
  | false =>
    rcases h with rfl | ⟨-, h⟩
    . rfl
    . rw [hplain] at h
      cases h

theorem form_write (h : IsReadable tag text) (indent column : Nat) :
    Form text indent column (isPlain tag text) (Style.write false indent column tag text) := by
  cases hchars : text.chars? with
  | none =>
    simp only [isPlain, Style.write, hchars, Bool.not_false]
    exact .double
  | some cs =>
    have htext := Text.chars?_eq_some_iff.mp hchars
    simp only [isPlain, Style.write, hchars, Bool.not_false]
    cases hchoose : Style.choose false tag cs with
    | plain =>
      have hplain := choose_eq_plain_iff.mp hchoose
      refine .plain htext (words_of_allowsPlain hplain.2 ?_)
        (hasLeadingIndicator_of_allowsPlain hplain.2)
      rintro rfl
      have hnull : tag = .null := hplain.1.symm
      subst hnull
      rcases h with h | ⟨h, -⟩
      . cases h
      . exact h rfl
    | single =>
      refine .single htext ?_
      unfold Style.choose at hchoose
      simp only at hchoose
      split at hchoose
      . cases hchoose
      . split at hchoose
        . next h => simp_all
        . cases hchoose
    | double => exact .double

variable {w : List Char}

def isKeyChar (c : Char) : Bool :=
  c.isAlpha || c == '_'

theorem isPrintableAscii_of_isKeyChar (h : isKeyChar c = true) :
    Style.isPrintableAscii c = true := by
  rw [isPrintableAscii_iff]
  unfold isKeyChar Char.isAlpha Char.isUpper Char.isLower at h
  simp only [Bool.or_eq_true, Bool.and_eq_true, decide_eq_true_eq, beq_iff_eq, ge_iff_le,
    UInt32.le_iff_toNat_le] at h
  have htoNat : c.val.toNat = c.toNat := rfl
  rcases h with (⟨hlow, hhigh⟩ | ⟨hlow, hhigh⟩) | rfl
  . have : 'A'.val.toNat = 65 ∧ 'Z'.val.toNat = 90 := ⟨rfl, rfl⟩
    omega
  . have : 'a'.val.toNat = 97 ∧ 'z'.val.toNat = 122 := ⟨rfl, rfl⟩
    omega
  . decide

theorem ne_of_isKeyChar {d : Char} (h : isKeyChar c = true) (hd : isKeyChar d = false) :
    c ≠ d := by
  rintro rfl
  rw [h] at hd
  cases hd

structure IsKey (w : List Char) : Prop where
  letters : ∀ c ∈ w, isKeyChar c = true
  short : w.length ≤ 100
  plain : Style.choose true .str w = .plain

theorem IsKey.exists_cons (h : IsKey w) : ∃ c w', w = c :: w' ∧ isKeyChar c = true := by
  have hplain := h.plain
  have hletters := h.letters
  cases w with
  | nil => cases hplain
  | cons c w => exact ⟨c, w, rfl, hletters c (.head _)⟩

theorem IsKey.isWord (h : IsKey w) : IsWord w := by
  refine ⟨?_, ?_, ?_, ?_, ?_⟩
  . rcases h.exists_cons with ⟨c, w, rfl, -⟩
    simp
  . intro c hc
    exact isPrintableAscii_of_isKeyChar (h.letters c hc)
  . intro c hc
    exact ne_of_isKeyChar (h.letters c hc) (by decide)
  . intro hhead
    exact ne_of_isKeyChar (h.letters _ (List.mem_of_head? hhead)) (by decide) rfl
  . intro hlast
    exact ne_of_isKeyChar (h.letters _ (List.mem_of_getLast? hlast)) (by decide) rfl

theorem IsKey.hasLeadingIndicator_append (h : IsKey w) (more : List Char) :
    Style.hasLeadingIndicator (w ++ more) = false := by
  rcases h.exists_cons with ⟨c, w, rfl, hc⟩
  have hsigns : "#,[]\x7b\x7d&*!|>'\"%@`".toList.all (!isKeyChar ·) = true := by decide
  rw [List.cons_append, Style.hasLeadingIndicator, Bool.or_eq_false_iff]
  constructor
  . rw [List.contains_eq_mem, decide_eq_false_iff_not]
    intro hmem
    exact ne_of_isKeyChar hc (by simpa using List.all_eq_true.mp hsigns c hmem) rfl
  . have hquestion : c ≠ '?' := ne_of_isKeyChar hc (by decide)
    have hcolon : c ≠ ':' := ne_of_isKeyChar hc (by decide)
    have hdash : c ≠ '-' := ne_of_isKeyChar hc (by decide)
    simp [hquestion, hcolon, hdash]

theorem IsKey.startsWithMark_append (h : IsKey w) (more : List Char) :
    startsWithMark (w ++ more) = false := by
  rcases h.exists_cons with ⟨c, w, rfl, hc⟩
  have hdash : c ≠ '-' := ne_of_isKeyChar hc (by decide)
  have hdot : c ≠ '.' := ne_of_isKeyChar hc (by decide)
  unfold startsWithMark
  split
  . next heq => exact absurd (List.cons.inj heq).1 hdash
  . next heq => exact absurd (List.cons.inj heq).1 hdot
  . rfl

theorem isWritten_of_printable (h : Style.isPrintableAscii c = true) : isWritten c = true := by
  rw [isPrintableAscii_iff] at h
  rw [isWritten_iff]
  exact .inr h

theorem isWritten_newLine (indent : Nat) : (Style.newLine indent).all isWritten = true := by
  unfold Style.newLine
  rw [List.all_cons, List.all_replicate]
  cases indent with
  | zero => rfl
  | succ indent => rfl

theorem isWritten_spaces (k : Nat) : (List.replicate k ' ').all isWritten = true := by
  rw [List.all_replicate]
  cases k with
  | zero => rfl
  | succ k => rfl

namespace Style

variable {split : Bool}

theorem isWritten_writePlain (h : cs.all isWritten = true) (spaces : Nat) :
    (writePlain split indent spaces column cs).all isWritten = true := by
  induction cs generalizing spaces column with
  | nil => exact isWritten_spaces spaces
  | cons c cs ih =>
    rw [List.all_cons, Bool.and_eq_true] at h
    unfold writePlain
    split
    . exact ih h.2 _
    . split
      . rw [List.all_append, isWritten_newLine, List.all_cons, h.1, ih h.2]
        rfl
      . rw [List.all_append, isWritten_spaces, List.all_cons, h.1, ih h.2]
        rfl

theorem isWritten_pause (pause : Pause) (indent : Nat) :
    (pause.write indent).all isWritten = true := by
  cases pause with
  | spaces n => exact isWritten_spaces n
  | breaks n =>
    unfold Pause.write
    rw [List.all_append, isWritten_newLine, List.all_replicate]
    cases n with
    | zero => rfl
    | succ n => rfl

theorem isWritten_singleChar (h : isWritten c = true) : (singleChar c).all isWritten = true := by
  unfold singleChar
  split
  . rfl
  . rw [List.all_cons, h]
    rfl

theorem isWritten_writeSingle (h : cs.all isWritten = true) (started : Bool) (pause : Pause) :
    (writeSingle split indent started pause column cs).all isWritten = true := by
  induction cs generalizing started pause column with
  | nil =>
    rw [writeSingle, List.all_append, isWritten_pause]
    rfl
  | cons c cs ih =>
    rw [List.all_cons, Bool.and_eq_true] at h
    have ih (started : Bool) (pause : Pause) (column : Nat) :
        (writeSingle split indent started pause column cs).all isWritten = true :=
      ih h.2 started pause
    have hc := isWritten_singleChar h.1
    unfold writeSingle
    split
    . split
      . apply ih
      . rw [List.all_append, isWritten_pause, ih]
        rfl
    . split
      . split
        . apply ih
        . rw [List.all_append, isWritten_pause, ih]
          rfl
      . split
        . rw [List.all_append, List.all_append, isWritten_newLine, hc, ih]
          rfl
        . rw [List.all_append, List.all_append, isWritten_pause, hc, ih]
          rfl

theorem isWritten_toUpper_digitChar : ∀ d < 16, isWritten (Nat.digitChar d).toUpper = true := by
  decide

theorem isWritten_hexUpper (width n : Nat) : (hexUpper width n).all isWritten = true := by
  rcases Text.exists_digits (show 1 < 16 by decide) n with ⟨ds, hds, hlt, -⟩
  unfold hexUpper Text.hexadecimal
  dsimp only
  rw [List.map_append, List.all_append, List.map_replicate, List.all_replicate, hds, List.map_map,
    Bool.and_eq_true]
  constructor
  . split
    . rfl
    . decide
  . rw [List.all_map, List.all_eq_true]
    intro d hd
    exact isWritten_toUpper_digitChar d (hlt d hd)

theorem isWritten_numberEscape (n : Nat) : (numberEscape n).all isWritten = true := by
  unfold numberEscape
  split
  . rw [List.all_cons, List.all_cons, isWritten_hexUpper]
    rfl
  . split
    . rw [List.all_cons, List.all_cons, isWritten_hexUpper]
      rfl
    . rw [List.all_cons, List.all_cons, isWritten_hexUpper]
      rfl

theorem isWritten_shortEscape {letter : Char} (h : shortEscape? c = some letter) :
    isWritten letter = true := by
  unfold shortEscape? at h
  have hcase : ∀ {b : Bool} {l : Char} {r : Option Char}, isWritten l = true →
      (r = some letter → isWritten letter = true) → (if b then some l else r) = some letter →
      isWritten letter = true := by
    intro b l r hl hr hif
    cases b with
    | true =>
      cases hif
      exact hl
    | false => exact hr hif
  revert h
  iterate 15 refine hcase (by decide) ?_
  intro h
  cases h

theorem isWritten_doublePoint (p : CodePoint) : (doublePoint p).2.all isWritten = true := by
  cases p with
  | surrogate n => exact isWritten_numberEscape _
  | char c =>
    unfold doublePoint
    dsimp only
    split
    . next h =>
      simp only [Bool.and_eq_true] at h
      simp [isWritten_of_printable h.2]
    . split
      . next letter h =>
        simp only [List.all_cons, isWritten_shortEscape h]
        rfl
      . exact isWritten_numberEscape _

theorem isWritten_hiddenBreak (indent : Nat) (points : List CodePoint) :
    (hiddenBreak indent points).1.all isWritten = true := by
  unfold hiddenBreak
  split
  . rw [List.all_append, List.all_cons, isWritten_newLine]
    rfl
  . rw [List.all_cons, isWritten_newLine]
    rfl

theorem isWritten_writeDouble (started afterEscape : Bool) (points : List CodePoint) :
    (writeDouble split indent started afterEscape column points).all isWritten = true := by
  induction points generalizing started afterEscape column with
  | nil => rfl
  | cons p points ih =>
    have hpoint := isWritten_doublePoint p
    unfold writeDouble
    dsimp only
    split
    . split
      . rw [List.all_append, List.all_append, hpoint, isWritten_hiddenBreak, ih]
        rfl
      . rw [List.all_append, hpoint, ih]
        rfl
    . split
      . rw [List.all_append, List.all_append, hpoint, isWritten_hiddenBreak, ih]
        rfl
      . rw [List.all_append, hpoint, ih]
        rfl

end Style

theorem Words.all_isWritten (h : Words cs) : cs.all isWritten = true := by
  have hword {w : List Char} (hw : IsWord w) : w.all isWritten = true := by
    rw [List.all_eq_true]
    intro c hc
    exact isWritten_of_printable (hw.printable c hc)
  induction h with
  | last hw => exact hword hw
  | more k hw hcs ih =>
    rw [List.all_append, List.all_append, hword hw, isWritten_spaces, ih]
    rfl

theorem IsKey.all_isWritten (hw : IsKey w) : w.all isWritten = true := by
  rw [List.all_eq_true]
  intro c hc
  exact isWritten_of_printable (hw.isWord.printable c hc)

theorem isWritten_of_allowsSingle (h : Style.allowsSingle cs = true) :
    cs.all isWritten = true := by
  unfold Style.allowsSingle Style.hasSpecial at h
  simp only [Bool.not_eq_true', Bool.or_eq_false_iff] at h
  rw [List.all_eq_true]
  intro c hc
  have hspecial := List.any_eq_false.mp h.1.1 c hc
  by_cases hbreak : c = '\n'
  . rw [hbreak]
    rfl
  . exact isWritten_of_printable (by simpa [hbreak] using hspecial)

theorem Form.all_isWritten {isPlain : Bool} {written : List Char}
    (h : Form text indent column isPlain written) : written.all isWritten = true := by
  cases h with
  | plain htext hwords hleading => exact Style.isWritten_writePlain hwords.all_isWritten 0
  | single htext hsingle =>
    rw [List.all_cons, Style.isWritten_writeSingle (isWritten_of_allowsSingle hsingle)]
    rfl
  | double =>
    rw [List.all_cons, Style.isWritten_writeDouble]
    rfl

end Yaml
end NodeSettings
