import NodeSettings.Proofs.Yaml.DoubleQuoted

/-!
This module contains the reading of what is written between single quotes.
-/

namespace NodeSettings
namespace Yaml

variable {cs rest : List Char} {points : List CodePoint} {state : Fold} {c : Char} {n : Nat}

namespace Piece

theorem single_quote (h : cs.head? ≠ some '\'') : single ('\'' :: cs) = .ok ([], cs) := by
  rw [single.eq_def]
  split
  . next heq => cases heq
  . next heq =>
    cases heq
    exact absurd rfl h
  . next heq =>
    cases heq
    rfl
  . next heq => cases heq
  . next hne _ heq =>
    cases heq
    exact (hne rfl).elim

theorem single_twoQuotes (cs : List Char) :
    single ('\'' :: '\'' :: cs) = inFront (pure (.plain (.char '\''))) (single cs) := by
  rw [single.eq_def]
  rfl

theorem single_space (cs : List Char) :
    single (' ' :: cs) = inFront (pure (.blank ' ')) (single cs) := by
  rw [single.eq_def]
  rfl

theorem single_newline (cs : List Char) :
    single ('\n' :: cs) = behindBreak (.newline '\n') cs (single cs) := by
  rw [single.eq_def]
  rfl

theorem single_plain (hprintable : Style.isPrintableAscii c) (hquote : c ≠ '\'')
    (hspace : c ≠ ' ') : single (c :: cs) = inFront (pure (.plain (.char c))) (single cs) := by
  have hbreak := isBreak_of_printable hprintable
  rw [single.eq_def]
  split
  . next heq => cases heq
  . next heq =>
    cases heq
    exact absurd rfl hquote
  . next heq =>
    cases heq
    exact absurd rfl hquote
  . next heq =>
    cases heq
    simp [isBreak] at hbreak
  . next heq =>
    cases heq
    rw [isBlank_of_printable hprintable hspace, lineBreak?_of_not_isBreak hbreak]
    rfl

theorem single_singleChar (hprintable : Style.isPrintableAscii c) (hspace : c ≠ ' ')
    (cs : List Char) :
    single (Style.singleChar c ++ cs) = inFront (pure (.plain (.char c))) (single cs) := by
  unfold Style.singleChar
  split
  . next hquote =>
    rw [beq_iff_eq] at hquote
    subst hquote
    exact single_twoQuotes cs
  . next hquote =>
    rw [beq_iff_eq] at hquote
    exact single_plain hprintable hquote hspace

end Piece

def GoesOn (cs : List Char) (points : List CodePoint) (rest : List Char) : Prop :=
  ∀ state : Fold, Gives (Piece.single cs) state (state.flush ++ points) rest

theorem goesOn_quote (h : rest.head? ≠ some '\'') : GoesOn ('\'' :: rest) [] rest := by
  intro state
  rw [Piece.single_quote h, List.append_nil]
  apply gives_end

theorem goesOn_singleChar (h : Gives (Piece.single cs) .text points rest)
    (hprintable : Style.isPrintableAscii c) (hspace : c ≠ ' ') :
    GoesOn (Style.singleChar c ++ cs) (.char c :: points) rest := by
  intro state
  rw [Piece.single_singleChar hprintable hspace]
  apply h.point

theorem GoesOn.spaces (h : GoesOn cs points rest) (n : Nat) (hopen : state.IsOpen) :
    Gives (Piece.single (List.replicate n ' ' ++ cs)) state
      (state.flush ++ (List.replicate n (.char ' ') ++ points)) rest := by
  induction n generalizing state with
  | zero => exact h state
  | succ n ih =>
    rw [List.replicate_succ, List.cons_append, Piece.single_space]
    apply Gives.blank
    have hgives := ih (hopen.afterBlank (c := ' '))
    rw [hopen.flush_afterBlank, List.append_assoc] at hgives
    exact hgives

theorem GoesOn.indentation (h : GoesOn cs points rest) (indent : Nat) (first : Char)
    (more : List Char) :
    Gives (Piece.single (List.replicate indent ' ' ++ cs)) (.breaks first more)
      ((Fold.breaks first more).flush ++ points) rest := by
  induction indent with
  | zero => exact h _
  | succ indent ih =>
    rw [List.replicate_succ, List.cons_append, Piece.single_space]
    exact ih.blank

theorem GoesOn.moreBreaks {indent : Nat} (h : GoesOn cs points rest) (hindent : 0 < indent)
    (n : Nat) (more : List Char) :
    Gives (Piece.single (List.replicate n '\n' ++ (List.replicate indent ' ' ++ cs)))
      (.breaks '\n' more)
      ((Fold.breaks '\n' (List.replicate n '\n' ++ more)).flush ++ points) rest := by
  induction n generalizing more with
  | zero => exact h.indentation indent '\n' more
  | succ n ih =>
    rw [List.replicate_succ, List.cons_append, Piece.single_newline]
    apply Gives.newline
    . have hgives := ih ('\n' :: more)
      rw [List.append_cons, ← List.replicate_succ'] at hgives
      exact hgives
    . cases n with
      | zero => exact startsWithMark_of_indented hindent cs
      | succ n => rfl

theorem GoesOn.breaks {indent : Nat} (h : GoesOn cs points rest) (hindent : 0 < indent) (n : Nat) :
    Gives (Piece.single (List.replicate n '\n' ++ (Style.newLine indent ++ cs))) .text
      (List.map .char (Fold.folded '\n' (List.replicate n '\n')) ++ points) rest := by
  have hbreaks : List.replicate n '\n' ++ (Style.newLine indent ++ cs) =
      '\n' :: (List.replicate n '\n' ++ (List.replicate indent ' ' ++ cs)) := by
    rw [Style.newLine, List.cons_append, List.append_cons, ← List.replicate_succ',
      List.replicate_succ, List.cons_append]
  rw [hbreaks, Piece.single_newline]
  apply Gives.newline
  . have hgives := h.moreBreaks hindent n []
    rw [List.append_nil, Fold.flush, List.reverse_replicate] at hgives
    exact hgives
  . cases n with
    | zero => exact startsWithMark_of_indented hindent cs
    | succ n => rfl

namespace Style

def Pause.text : Pause → List Char
  | spaces n => List.replicate n ' '
  | breaks n => List.replicate n '\n'

theorem hasBeside_tail {first second : Char → Bool} (h : hasBeside first second (c :: cs) = false) :
    hasBeside first second cs = false := by
  cases cs with
  | nil => rfl
  | cons b cs =>
    rw [hasBeside, Bool.or_eq_false_iff] at h
    exact h.2

theorem allowsSingle_tail (h : allowsSingle (c :: cs) = true) : allowsSingle cs = true := by
  unfold allowsSingle hasSpecial at h ⊢
  simp only [Bool.not_eq_true', Bool.or_eq_false_iff] at h ⊢
  rcases h with ⟨⟨hspecial, hbefore⟩, hbehind⟩
  refine ⟨⟨?_, hasBeside_tail hbefore⟩, hasBeside_tail hbehind⟩
  rw [List.any_cons, Bool.or_eq_false_iff] at hspecial
  exact hspecial.2

theorem allowsSingle_append {front : List Char} (h : allowsSingle (front ++ cs) = true) :
    allowsSingle cs = true := by
  induction front with
  | nil => exact h
  | cons c front ih =>
    apply ih
    exact allowsSingle_tail h

theorem printable_of_allowsSingle (h : allowsSingle (c :: cs) = true) (hbreak : c ≠ '\n') :
    isPrintableAscii c = true := by
  unfold allowsSingle hasSpecial at h
  simp only [Bool.not_eq_true', Bool.or_eq_false_iff] at h
  have hspecial := h.1.1
  rw [List.any_cons, Bool.or_eq_false_iff] at hspecial
  simpa [hbreak] using hspecial.1

theorem not_allowsSingle_space_break (cs : List Char) :
    allowsSingle (' ' :: '\n' :: cs) = false := by
  simp [allowsSingle, hasBeside, isWrittenBreak]

theorem not_allowsSingle_break_space (cs : List Char) :
    allowsSingle ('\n' :: ' ' :: cs) = false := by
  simp [allowsSingle, hasBeside, isWrittenBreak]

theorem spaces_of_allowsSingle {pause : Pause} (hpause : pause ≠ .breaks 0)
    (h : allowsSingle (pause.text ++ ' ' :: cs) = true) : ∃ n, pause = .spaces n := by
  cases pause with
  | spaces n => exact ⟨n, rfl⟩
  | breaks n =>
    cases n with
    | zero => exact absurd rfl hpause
    | succ n =>
      rw [Pause.text, List.replicate_succ', List.append_assoc] at h
      have hbad := allowsSingle_append h
      rw [List.singleton_append, not_allowsSingle_break_space] at hbad
      cases hbad

theorem breaks_of_allowsSingle {pause : Pause}
    (h : allowsSingle (pause.text ++ '\n' :: cs) = true) :
    pause = .spaces 0 ∨ ∃ n, pause = .breaks n := by
  cases pause with
  | breaks n => exact .inr ⟨n, rfl⟩
  | spaces n =>
    cases n with
    | zero => exact .inl rfl
    | succ n =>
      rw [Pause.text, List.replicate_succ', List.append_assoc] at h
      have hbad := allowsSingle_append h
      rw [List.singleton_append, not_allowsSingle_space_break] at hbad
      cases hbad

end Style

open Style

theorem GoesOn.pause {indent : Nat} (h : GoesOn cs points rest) (hindent : 0 < indent)
    {pause : Pause} (hpause : pause ≠ .breaks 0) :
    Gives (Piece.single (pause.write indent ++ cs)) .text (pause.text.map .char ++ points)
      rest := by
  cases pause with
  | spaces n =>
    have hgives := h.spaces n (show Fold.IsOpen .text from trivial)
    rw [Fold.flush, List.map_nil, List.nil_append] at hgives
    simpa [Pause.text, Pause.write] using hgives
  | breaks n =>
    cases n with
    | zero => exact absurd rfl hpause
    | succ n =>
      have hgives := h.breaks hindent (n + 1)
      rw [← List.append_assoc] at hgives
      exact hgives

theorem gives_writeSingle (split : Bool) {indent : Nat} (hindent : 0 < indent)
    (hrest : rest.head? ≠ some '\'') (started : Bool) (pause : Pause) (column : Nat)
    (hpause : pause ≠ .breaks 0) (h : allowsSingle (pause.text ++ cs) = true) :
    Gives (Piece.single (writeSingle split indent started pause column cs ++ rest)) .text
      ((pause.text ++ cs).map .char) rest := by
  induction cs generalizing started pause column with
  | nil =>
    have hgives := (goesOn_quote hrest).pause hindent hpause
    rw [writeSingle, List.append_assoc, List.append_nil]
    rwa [List.append_nil] at hgives
  | cons c cs ih =>
    rw [writeSingle.eq_def]
    dsimp only
    split
    . next hspace =>
      -- Spaces only follow spaces, so that the pause goes on.
      rw [beq_iff_eq] at hspace
      subst hspace
      rcases spaces_of_allowsSingle hpause h with ⟨n, rfl⟩
      have htext : (Pause.spaces n).text ++ ' ' :: cs = (Pause.spaces (n + 1)).text ++ cs := by
        rw [Pause.text, Pause.text, List.append_cons, ← List.replicate_succ']
      rw [htext] at h ⊢
      exact ih _ _ _ (by simp) h
    . next hspace =>
      rw [beq_iff_eq] at hspace
      split
      . next hbreak =>
        rw [beq_iff_eq] at hbreak
        subst hbreak
        -- A line break follows other line breaks, or begins a pause.
        rcases breaks_of_allowsSingle h with rfl | ⟨n, rfl⟩
        . exact ih _ (.breaks 1) _ (by simp) h
        . have htext : (Pause.breaks n).text ++ '\n' :: cs = (Pause.breaks (n + 1)).text ++ cs := by
            rw [Pause.text, Pause.text, List.append_cons, ← List.replicate_succ']
          rw [htext] at h ⊢
          exact ih _ _ _ (by simp) h
      . next hbreak =>
        rw [beq_iff_eq] at hbreak
        have hsuffix := allowsSingle_append h
        have hprintable := printable_of_allowsSingle hsuffix hbreak
        have hmore : ∀ column, GoesOn (singleChar c
            ++ (writeSingle split indent true (.spaces 0) column cs ++ rest))
            (.char c :: cs.map .char) rest := by
          intro column
          apply goesOn_singleChar _ hprintable hspace
          exact ih true (.spaces 0) column (by simp) (allowsSingle_tail hsuffix)
        split
        -- A single space on a long line has become a line break.
        . next hfold =>
          simp only [Bool.and_eq_true, beq_iff_eq] at hfold
          rcases hfold with ⟨⟨⟨-, rfl⟩, -⟩, -⟩
          have hgives := (hmore (indent + (singleChar c).length)).breaks hindent 0
          simpa [Fold.folded, Pause.text] using hgives
        . have hgives := (hmore (pause.columnAfter indent column + (singleChar c).length)).pause
            hindent hpause
          simpa using hgives

theorem readSingle_writeSingle {split : Bool} {indent : Nat} (hindent : 0 < indent)
    (hrest : rest.head? ≠ some '\'') (column : Nat) (h : allowsSingle cs = true) :
    readSingle (writeSingle split indent false (.spaces 0) column cs ++ rest) =
      .ok (.ofChars cs, rest) := by
  rcases gives_writeSingle split hindent hrest false (.spaces 0) column (by simp) h with
    ⟨pieces, hpieces, hjoin⟩
  unfold readSingle
  rw [hpieces, Except.ok_bind]
  dsimp only
  rw [hjoin]
  rfl

end Yaml
end NodeSettings
