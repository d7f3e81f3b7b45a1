import NodeSettings.Proofs.Except
import NodeSettings.Yaml.QuotedScalar
import NodeSettings.Yaml.Style

/-!
This module contains what the pieces of a quoted scalar become when lines are folded, whichever
quotes they stand between.
-/

namespace NodeSettings
namespace Yaml

variable {c : Char}

theorem isPrintableAscii_iff :
    Style.isPrintableAscii c = true ↔ 0x20 ≤ c.toNat ∧ c.toNat ≤ 0x7E := by
  unfold Style.isPrintableAscii
  rw [Bool.and_eq_true, decide_eq_true_eq, decide_eq_true_eq, Char.le_def, Char.le_def,
    UInt32.le_iff_toNat_le, UInt32.le_iff_toNat_le]
  rfl

theorem isBreak_of_printable (h : Style.isPrintableAscii c = true) : isBreak c = false := by
  rw [isPrintableAscii_iff] at h
  unfold isBreak
  simp only [Bool.or_eq_false_iff, beq_eq_false_iff_ne, ne_eq]
  refine ⟨⟨⟨⟨?_, ?_⟩, ?_⟩, ?_⟩, ?_⟩
  all_goals
    rintro rfl
    revert h
    decide

theorem isBlank_of_printable (h : Style.isPrintableAscii c = true) (hspace : c ≠ ' ') :
    isBlank c = false := by
  rw [isPrintableAscii_iff] at h
  unfold isBlank
  simp only [Bool.or_eq_false_iff, beq_eq_false_iff_ne, ne_eq]
  refine ⟨hspace, ?_⟩
  rintro rfl
  revert h
  decide

theorem lineBreak?_of_not_isBreak (h : isBreak c = false) : lineBreak? [c] = none := by
  unfold isBreak at h
  simp only [Bool.or_eq_false_iff, beq_eq_false_iff_ne, ne_eq] at h
  unfold lineBreak?
  simp [h]

theorem startsWithMark_of_indented {indent : Nat} (h : 0 < indent) (cs : List Char) :
    startsWithMark (List.replicate indent ' ' ++ cs) = false := by
  cases indent with
  | zero => cases h
  | succ indent => rfl

def Fold.afterBlank (c : Char) : Fold → Fold
  | .text => .blanks [c]
  | .blanks seen => .blanks (c :: seen)
  | state => state

def Fold.afterBreak (c : Char) : Fold → Fold
  | .text | .blanks _ => .breaks c []
  | .breaks first more => .breaks first (c :: more)
  | .hidden more => .hidden (c :: more)

variable {read : Except Fault (List Piece × List Char)} {state : Fold}
variable {points : List CodePoint} {behind rest : List Char}

/-- The pieces read give some points behind what has been seen last, and leave the rest. -/
def Gives (read : Except Fault (List Piece × List Char)) (state : Fold) (points : List CodePoint)
    (rest : List Char) : Prop :=
  ∃ pieces, read = .ok (pieces, rest) ∧ state.join pieces = points

theorem gives_end (state : Fold) (rest : List Char) :
    Gives (.ok ([], rest)) state state.flush rest :=
  ⟨[], rfl, by rw [Fold.join]⟩

theorem Gives.point (h : Gives read .text points rest) (state : Fold) (p : CodePoint) :
    Gives (Piece.inFront (pure (.plain p)) read) state (state.flush ++ p :: points) rest := by
  rcases h with ⟨pieces, rfl, rfl⟩
  exact ⟨.plain p :: pieces, rfl, by rw [Fold.join]⟩

theorem Gives.blank (h : Gives read (state.afterBlank c) points rest) :
    Gives (Piece.inFront (pure (.blank c)) read) state points rest := by
  rcases h with ⟨pieces, rfl, rfl⟩
  refine ⟨.blank c :: pieces, rfl, ?_⟩
  cases state <;> rfl

theorem Gives.newline (h : Gives read (state.afterBreak c) points rest)
    (hmark : startsWithMark behind = false) :
    Gives (Piece.behindBreak (.newline c) behind read) state points rest := by
  rcases h with ⟨pieces, rfl, rfl⟩
  refine ⟨.newline c :: pieces, ?_, ?_⟩
  . simp [Piece.behindBreak, hmark]
  . cases state <;> rfl

theorem Gives.joined (h : Gives read (.hidden []) points rest)
    (hmark : startsWithMark behind = false) (state : Fold) :
    Gives (Piece.behindBreak .joined behind read) state (state.flush ++ points) rest := by
  rcases h with ⟨pieces, rfl, rfl⟩
  refine ⟨.joined :: pieces, ?_, ?_⟩
  . simp [Piece.behindBreak, hmark]
  . rw [Fold.join]

end Yaml
end NodeSettings
