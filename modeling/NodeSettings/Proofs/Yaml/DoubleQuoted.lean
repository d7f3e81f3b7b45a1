import NodeSettings.Proofs.Digits
import NodeSettings.Proofs.Text
import NodeSettings.Proofs.Yaml.Piece

/-!
This module contains the reading of what is written between double quotes.
-/

namespace NodeSettings
namespace Yaml

variable {cs rest : List Char} {points : List CodePoint} {state : Fold} {c : Char}

open Text

theorem hexValue?_toUpper_digitChar : ∀ d < 16, hexValue? (Nat.digitChar d).toUpper = some d := by
  decide

theorem length_hexUpper {width n : Nat} (h : n < Nat.pow 16 width) (hwidth : 0 < width) :
    (Style.hexUpper width n).length = width := by
  rw [Style.hexUpper, List.length_map, length_hexadecimal h hwidth]

theorem hexNumber?_hexUpper (width n : Nat) :
    Piece.hexNumber? (Style.hexUpper width n) = some n := by
  rcases exists_digits_hexadecimal width n with ⟨ds, hds, hlt, hvalue⟩
  have hdigits : (Style.hexUpper width n).mapM hexValue? = some ds := by
    rw [Style.hexUpper, hds, List.map_map]
    exact mapM_hexValue? hexValue?_toUpper_digitChar hlt
  rw [Piece.hexNumber?, hdigits, Option.map_some, hvalue]

namespace Piece

theorem double_quote (cs : List Char) : double ('"' :: cs) = .ok ([], cs) := by
  rw [double]
  rfl

theorem double_space (cs : List Char) :
    double (' ' :: cs) = inFront (pure (.blank ' ')) (double cs) := by
  rw [double.eq_def]
  rfl

theorem double_hidden (cs : List Char) :
    double ('\\' :: '\n' :: cs) = behindBreak .joined cs (double cs) := by
  rw [double.eq_def]
  rfl

theorem double_keptSpace (cs : List Char) :
    double ('\\' :: ' ' :: cs) = inFront (pure (.plain (.char ' '))) (double cs) := by
  rw [double.eq_def]
  rfl

theorem double_plain (hprintable : Style.isPrintableAscii c) (hquote : c ≠ '"') (hslash : c ≠ '\\')
    (hspace : c ≠ ' ') : double (c :: cs) = inFront (pure (.plain (.char c))) (double cs) := by
  have hbreak := isBreak_of_printable hprintable
  rw [double.eq_def]
  split
  . next h => cases h
  . next h =>
    cases h
    exact absurd rfl hquote
  . next h =>
    cases h
    exact absurd rfl hslash
  . next h =>
    cases h
    exact absurd rfl hslash
  . next h =>
    cases h
    exact absurd rfl hslash
  . next h =>
    cases h
    exact absurd rfl hslash
  . next h =>
    cases h
    exact absurd rfl hslash
  . next h =>
    cases h
    simp [isBreak] at hbreak
  . next h =>
    cases h
    rw [isBlank_of_printable hprintable hspace, lineBreak?_of_not_isBreak hbreak]
    rfl

theorem double_shortEscape {letter : Char} (h : Style.shortEscape? c = some letter)
    (cs : List Char) :
    double ('\\' :: letter :: cs) = inFront (pure (.plain (.char c))) (double cs) := by
  have hcase : ∀ {d l : Char} {r : Option Char}, (if c == d then some l else r) = some letter →
      (c = d ∧ l = letter) ∨ r = some letter := by
    intro d l r h
    by_cases hd : c = d
    . simp [hd] at h
      exact .inl ⟨hd, h⟩
    . simp [hd] at h
      exact .inr h
  unfold Style.shortEscape? at h
  iterate 15
    rcases hcase h with ⟨rfl, rfl⟩ | h
    . rw [double.eq_def]
      rfl
  cases h

theorem toNat_lt (p : CodePoint) : p.toNat < 0x110000 := by
  cases p with
  | char c =>
    have hvalid : c.toNat < 0xD800 ∨ (0xDFFF < c.toNat ∧ c.toNat < 0x110000) := c.valid
    simp only [CodePoint.toNat]
    omega
  | surrogate n =>
    have hn := n.isLt
    simp only [CodePoint.toNat]
    omega

theorem ofHex_hexUpper (p : CodePoint) (width : Nat) :
    ofHex (Style.hexUpper width p.toNat) = .ok (.plain p) := by
  unfold ofHex
  rw [hexNumber?_hexUpper]
  dsimp only
  unfold ofNumber
  rw [CodePoint.ofNat?_toNat]
  rfl

theorem double_hexUpper_two (p : CodePoint) (h : p.toNat ≤ 0xFF) (cs : List Char) :
    double ('\\' :: 'x' :: (Style.hexUpper 2 p.toNat ++ cs)) =
      inFront (pure (.plain p)) (double cs) := by
  have hhex := ofHex_hexUpper p 2
  have hbound : p.toNat < Nat.pow 16 2 := Nat.lt_succ_of_le h
  have hlength := length_hexUpper hbound (by decide)
  rcases hdigits : Style.hexUpper 2 p.toNat with _ | ⟨a, _ | ⟨b, _ | ⟨_, _⟩⟩⟩
  all_goals rw [hdigits] at hlength hhex
  . cases hlength
  . cases hlength
  . show double ('\\' :: 'x' :: a :: b :: cs) = _
    rw [double.eq_def]
    show inFront (ofHex [a, b]) (double cs) = _
    rw [hhex]
    rfl
  . simp at hlength

theorem double_hexUpper_four (p : CodePoint) (h : p.toNat ≤ 0xFFFF) (cs : List Char) :
    double ('\\' :: 'u' :: (Style.hexUpper 4 p.toNat ++ cs)) =
      inFront (pure (.plain p)) (double cs) := by
  have hhex := ofHex_hexUpper p 4
  have hbound : p.toNat < Nat.pow 16 4 := Nat.lt_succ_of_le h
  have hlength := length_hexUpper hbound (by decide)
  rcases hdigits : Style.hexUpper 4 p.toNat with
    _ | ⟨a₁, _ | ⟨a₂, _ | ⟨a₃, _ | ⟨a₄, _ | ⟨_, _⟩⟩⟩⟩⟩
  all_goals rw [hdigits] at hlength hhex
  all_goals try simp at hlength
  show double ('\\' :: 'u' :: a₁ :: a₂ :: a₃ :: a₄ :: cs) = _
  rw [double.eq_def]
  show inFront (ofHex [a₁, a₂, a₃, a₄]) (double cs) = _
  rw [hhex]
  rfl

theorem double_hexUpper_eight (p : CodePoint) (cs : List Char) :
    double ('\\' :: 'U' :: (Style.hexUpper 8 p.toNat ++ cs)) =
      inFront (pure (.plain p)) (double cs) := by
  have hhex := ofHex_hexUpper p 8
  have h : p.toNat < Nat.pow 16 8 := Nat.lt_trans (toNat_lt p) (by decide)
  have hlength := length_hexUpper h (by decide)
  rcases hdigits : Style.hexUpper 8 p.toNat with
    _ | ⟨a₁, _ | ⟨a₂, _ | ⟨a₃, _ | ⟨a₄, _ | ⟨a₅, _ | ⟨a₆, _ | ⟨a₇, _ | ⟨a₈, _ | ⟨_, _⟩⟩⟩⟩⟩⟩⟩⟩⟩
  all_goals rw [hdigits] at hlength hhex
  all_goals try simp at hlength
  show double ('\\' :: 'U' :: a₁ :: a₂ :: a₃ :: a₄ :: a₅ :: a₆ :: a₇ :: a₈ :: cs) = _
  rw [double.eq_def]
  show inFront (ofHex [a₁, a₂, a₃, a₄, a₅, a₆, a₇, a₈]) (double cs) = _
  rw [hhex]
  rfl

theorem double_numberEscape (p : CodePoint) (cs : List Char) :
    double (Style.numberEscape p.toNat ++ cs) = inFront (pure (.plain p)) (double cs) := by
  unfold Style.numberEscape
  split
  . next h => exact double_hexUpper_two p h cs
  . split
    . next h => exact double_hexUpper_four p h cs
    . apply double_hexUpper_eight

theorem double_doublePoint {p : CodePoint} (hspace : p ≠ .char ' ') (cs : List Char) :
    double ((Style.doublePoint p).2 ++ cs) = inFront (pure (.plain p)) (double cs) := by
  cases p with
  | surrogate n => apply double_numberEscape
  | char c =>
    unfold Style.doublePoint
    dsimp only
    split
    . next h =>
      simp only [Bool.and_eq_true, bne_iff_ne, ne_eq] at h
      rcases h with ⟨⟨hquote, hslash⟩, hprintable⟩
      apply double_plain hprintable hquote hslash
      rintro rfl
      exact hspace rfl
    . split
      . next h => exact double_shortEscape h cs
      . exact double_numberEscape (.char c) cs

end Piece

theorem doublePoint_space : Style.doublePoint (.char ' ') = (false, [' ']) :=
  rfl

def Fold.IsOpen : Fold → Prop
  | .text | .blanks _ => True
  | .breaks .. | .hidden _ => False

theorem Fold.IsOpen.afterBlank (h : state.IsOpen) : (state.afterBlank c).IsOpen := by
  cases state with
  | text => trivial
  | blanks seen => trivial
  | breaks first more => cases h
  | hidden more => cases h

theorem Fold.IsOpen.flush_afterBlank (h : state.IsOpen) :
    (state.afterBlank c).flush = state.flush ++ [.char c] := by
  cases state with
  | text => rfl
  | blanks seen => simp [Fold.afterBlank, Fold.flush]
  | breaks first more => cases h
  | hidden more => cases h

theorem gives_indentation {more : List Char}
    (h : Gives (Piece.double cs) (.hidden more) points rest) (indent : Nat) :
    Gives (Piece.double (List.replicate indent ' ' ++ cs)) (.hidden more) points rest := by
  induction indent with
  | zero => exact h
  | succ indent ih =>
    rw [List.replicate_succ, List.cons_append, Piece.double_space]
    exact ih.blank

theorem gives_hiddenBreak {indent : Nat} (hindent : 0 < indent)
    (h : Gives (Piece.double cs) (.hidden []) points rest) (state : Fold) :
    Gives (Piece.double ('\\' :: Style.newLine indent ++ cs)) state (state.flush ++ points)
      rest := by
  show Gives (Piece.double ('\\' :: '\n' :: (List.replicate indent ' ' ++ cs))) _ _ _
  rw [Piece.double_hidden]
  apply Gives.joined _ (startsWithMark_of_indented hindent _)
  apply gives_indentation h

variable {split : Bool} {indent : Nat}

theorem writeDouble_space_of_fits {column : Nat} (h : column ≤ Style.width)
    (started afterEscape : Bool) (points : List CodePoint) :
    Style.writeDouble split indent started afterEscape column (.char ' ' :: points) =
      ' ' :: Style.writeDouble split indent true false (column + 1) points := by
  have hfits : ¬ Style.width < column := by omega
  simp [Style.writeDouble, doublePoint_space, hfits]

def AreReadBack (split : Bool) (indent : Nat) (points : List CodePoint) (rest : List Char) : Prop :=
  ∀ started afterEscape column, ∀ state : Fold,
    (points.head? = some (.char ' ') → state.IsOpen) →
    Gives (Piece.double (Style.writeDouble split indent started afterEscape column points ++ rest))
      state (state.flush ++ points) rest

theorem AreReadBack.hidden (hindent : 0 < indent) (hwidth : indent + 1 ≤ Style.width)
    (h : AreReadBack split indent points rest)
    (hrest : ∀ ps, points = .char ' ' :: ps → AreReadBack split indent ps rest) (state : Fold) :
    Gives (Piece.double ((Style.hiddenBreak indent points).1
      ++ (Style.writeDouble split indent true true (Style.hiddenBreak indent points).2 points
        ++ rest))) state (state.flush ++ points) rest := by
  unfold Style.hiddenBreak
  split
  . next hspace =>
    rw [beq_iff_eq] at hspace
    rcases List.head?_eq_some_iff.mp hspace with ⟨ps, rfl⟩
    have hps := hrest ps rfl true false (indent + 1 + 1) .text (fun _ => trivial)
    rw [writeDouble_space_of_fits hwidth]
    show Gives (Piece.double ('\\' :: '\n' :: (List.replicate indent ' ' ++ ['\\'] ++ _))) _ _ _
    rw [List.append_assoc]
    apply gives_hiddenBreak hindent
    show Gives (Piece.double ('\\' :: ' ' :: _)) _ _ _
    rw [Piece.double_keptSpace]
    exact hps.point (.hidden []) _
  . next hspace =>
    rw [beq_iff_eq] at hspace
    apply gives_hiddenBreak hindent
    apply h
    intro hhead
    exact absurd hhead hspace

namespace AreReadBack

variable (h : AreReadBack split indent points rest)
include h

theorem gives (started afterEscape : Bool) (column : Nat) :
    Gives (Piece.double (Style.writeDouble split indent started afterEscape column points ++ rest))
      .text points rest :=
  h started afterEscape column .text fun _ => trivial

theorem cons_space (hindent : 0 < indent) :
    AreReadBack split indent (.char ' ' :: points) rest := by
  intro started afterEscape column state hopen
  have hstate : state.IsOpen := hopen rfl
  rw [Style.writeDouble]
  dsimp only
  split
  . next hescaped => cases hescaped
  . split
    -- The line is broken in front of the space.
    . show Gives (Piece.double ('\\' :: '\n' :: (List.replicate indent ' ' ++ ['\\'] ++ [' ']
        ++ _ ++ rest))) _ _ _
      simp only [List.append_assoc]
      apply gives_hiddenBreak hindent
      show Gives (Piece.double ('\\' :: ' ' :: _)) _ _ _
      rw [Piece.double_keptSpace]
      exact (h.gives _ _ _).point (.hidden []) _
    . show Gives (Piece.double (' ' :: _)) _ _ _
      rw [Piece.double_space]
      apply Gives.blank
      have hgives := h true false (column + 1) (state.afterBlank ' ') fun _ => hstate.afterBlank
      rw [hstate.flush_afterBlank, List.append_assoc] at hgives
      exact hgives

theorem cons_of_ne_space (hindent : 0 < indent) (hwidth : indent + 1 ≤ Style.width)
    (hrest : ∀ ps, points = .char ' ' :: ps → AreReadBack split indent ps rest)
    {p : CodePoint} (hspace : p ≠ .char ' ') : AreReadBack split indent (p :: points) rest := by
  intro started afterEscape column state _
  rw [Style.writeDouble]
  dsimp only
  split
  . split
    . rw [List.append_assoc, List.append_assoc, Piece.double_doublePoint hspace]
      apply Gives.point
      exact h.hidden hindent hwidth hrest .text
    . rw [List.append_assoc, Piece.double_doublePoint hspace]
      exact (h.gives _ _ _).point state p
  . split
    -- The line is broken in front of the point, which needs no sign.
    . have hline : (Style.hiddenBreak indent (p :: points)).1 = '\\' :: Style.newLine indent := by
        unfold Style.hiddenBreak
        simp [hspace]
      rw [hline, List.append_assoc, List.append_assoc]
      apply gives_hiddenBreak hindent
      rw [Piece.double_doublePoint hspace]
      exact (h.gives _ _ _).point (.hidden []) p
    . rw [List.append_assoc, Piece.double_doublePoint hspace]
      exact (h.gives _ _ _).point state p

end AreReadBack

theorem areReadBack (split : Bool) (hindent : 0 < indent) (hwidth : indent + 1 ≤ Style.width)
    (points : List CodePoint) (rest : List Char) :
    AreReadBack split indent points rest
      ∧ ∀ ps, points = .char ' ' :: ps → AreReadBack split indent ps rest := by
  induction points with
  | nil =>
    refine ⟨?_, by simp⟩
    intro started afterEscape column state _
    rw [Style.writeDouble, List.append_nil]
    show Gives (Piece.double ('"' :: rest)) _ _ _
    rw [Piece.double_quote]
    apply gives_end
  | cons p points ih =>
    refine ⟨?_, ?_⟩
    . by_cases hspace : p = .char ' '
      . subst hspace
        exact ih.1.cons_space hindent
      . exact ih.1.cons_of_ne_space hindent hwidth ih.2 hspace
    . intro ps hps
      cases hps
      exact ih.1

theorem readDouble_writeDouble (hindent : 0 < indent) (hwidth : indent + 1 ≤ Style.width)
    (column : Nat) (t : Text) (rest : List Char) :
    readDouble (Style.writeDouble split indent false false column t.points ++ rest) =
      .ok (t, rest) := by
  have h := (areReadBack split hindent hwidth t.points rest).1 false false column .text
    (fun _ => trivial)
  rcases h with ⟨pieces, hpieces, hjoin⟩
  unfold readDouble
  rw [hpieces, Except.ok_bind]
  dsimp only
  rw [hjoin]
  rfl

end Yaml
end NodeSettings
