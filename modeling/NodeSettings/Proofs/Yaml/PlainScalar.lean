import NodeSettings.Proofs.Yaml.Cursor
import NodeSettings.Proofs.Yaml.Piece
import NodeSettings.Yaml.PlainScalar

/-!
This module contains the reading of plain scalars that have been written: the words are read as they
are, and the spaces between them come back from spaces and from line breaks.
-/

namespace NodeSettings
namespace Yaml

variable {cs w more tail tail' : List Char} {c : Char} {k m indent column fuel : Nat}

structure IsWord (w : List Char) : Prop where
  ne_nil : w ≠ []
  printable : ∀ c ∈ w, Style.isPrintableAscii c = true
  no_space : ∀ c ∈ w, c ≠ ' '
  head : w.head? ≠ some '#'
  last : w.getLast? ≠ some ':'

inductive Words : List Char → Prop where
  | last {w : List Char} (hw : IsWord w) : Words w
  | more {w cs : List Char} (k : Nat) (hw : IsWord w) (hcs : Words cs) :
    Words (w ++ (List.replicate (k + 1) ' ' ++ cs))

theorem hasInnerIndicator_of_append {front : List Char}
    (h : Style.hasInnerIndicator (front ++ cs) = false) : Style.hasInnerIndicator cs = false := by
  induction front with
  | nil => exact h
  | cons a front ih =>
    apply ih
    cases hfront : front ++ cs with
    | nil => rfl
    | cons b more =>
      rw [List.cons_append, hfront, Style.hasInnerIndicator, Bool.or_eq_false_iff] at h
      exact h.2

structure CanFollow (cs : List Char) : Prop where
  printable : ∀ c ∈ cs, Style.isPrintableAscii c = true
  head : cs.head? ≠ some ' '
  last : cs.getLast? ≠ some ' '
  indicator : Style.hasInnerIndicator (' ' :: cs) = false

theorem CanFollow.isWord (h : CanFollow (w ++ more)) (hw : w ≠ []) (hspace : ∀ c ∈ w, c ≠ ' ')
    (hmore : endsWord more = true) : IsWord w := by
  refine ⟨hw, ?_, hspace, ?_, ?_⟩
  . intro c hc
    apply h.printable
    rw [List.mem_append]
    exact .inl hc
  . intro hhead
    cases w with
    | nil => cases hhead
    | cons c w =>
      cases hhead
      have hindicator := h.indicator
      simp [Style.hasInnerIndicator, isBlank] at hindicator
  . -- a colon at the end of a word stands behind some character: a space if there is no other
    intro hlast
    rcases List.getLast?_eq_some_iff.mp hlast with ⟨front, rfl⟩
    have hbehind : ∃ before a, ' ' :: front = before ++ [a] := by
      rcases List.eq_nil_or_concat front with rfl | ⟨before, a, rfl⟩
      . exact ⟨[], ' ', rfl⟩
      . exact ⟨' ' :: before, a, by rw [List.concat_eq_append, List.cons_append]⟩
    rcases hbehind with ⟨before, a, hbehind⟩
    have hindicator := h.indicator
    rw [List.append_assoc, ← List.cons_append, hbehind, List.append_assoc] at hindicator
    have hcolon := hasInnerIndicator_of_append hindicator
    simp [Style.hasInnerIndicator, hmore] at hcolon

theorem exists_word (cs : List Char) :
    ∃ w more, cs = w ++ more ∧ (∀ c ∈ w, c ≠ ' ') ∧ (more = [] ∨ more.head? = some ' ') := by
  induction cs with
  | nil => exact ⟨[], [], rfl, by simp, .inl rfl⟩
  | cons c cs ih =>
    by_cases hc : c = ' '
    . exact ⟨[], c :: cs, rfl, by simp, .inr (by rw [hc]; rfl)⟩
    . rcases ih with ⟨w, more, rfl, hw, hmore⟩
      refine ⟨c :: w, more, rfl, ?_, hmore⟩
      intro d hd
      rcases List.mem_cons.mp hd with rfl | hd
      . exact hc
      . exact hw d hd

theorem exists_spaces (cs : List Char) :
    ∃ k more, cs = List.replicate k ' ' ++ more ∧ more.head? ≠ some ' ' := by
  induction cs with
  | nil => exact ⟨0, [], rfl, by simp⟩
  | cons c cs ih =>
    by_cases hc : c = ' '
    . rcases ih with ⟨k, more, rfl, hmore⟩
      refine ⟨k + 1, more, ?_, hmore⟩
      rw [hc, List.replicate_succ, List.cons_append]
    . exact ⟨0, c :: cs, rfl, by simpa using hc⟩

theorem CanFollow.behindSpaces (h : CanFollow (w ++ (List.replicate (k + 1) ' ' ++ cs)))
    (hcs : cs.head? ≠ some ' ') : cs ≠ [] ∧ CanFollow cs := by
  have hsuffix : cs <:+ w ++ (List.replicate (k + 1) ' ' ++ cs) := by
    rw [← List.append_assoc]
    apply List.suffix_append
  have hne : cs ≠ [] := by
    rintro rfl
    have hlast := h.last
    rw [List.append_nil, List.replicate_succ', ← List.append_assoc] at hlast
    simp at hlast
  refine ⟨hne, ?_, hcs, ?_, ?_⟩
  . intro c hc
    exact h.printable c (hsuffix.mem hc)
  . intro hlast
    apply h.last
    rcases hsuffix with ⟨front, hfront⟩
    rw [← hfront, List.getLast?_append, hlast]
    rfl
  . have hindicator := h.indicator
    rw [List.replicate_succ', List.append_assoc, ← List.append_assoc, ← List.cons_append]
      at hindicator
    exact hasInnerIndicator_of_append hindicator

theorem CanFollow.words (h : CanFollow cs) (hcs : cs ≠ []) : Words cs := by
  induction hlength : cs.length using Nat.strongRecOn generalizing cs with
  | ind length ih =>
    rcases exists_word cs with ⟨w, more, rfl, hspace, hmore⟩
    have hw : w ≠ [] := by
      rintro rfl
      rcases hmore with rfl | hmore
      . exact hcs rfl
      . exact h.head hmore
    rcases hmore with rfl | hmore
    . rw [List.append_nil]
      exact .last (h.isWord hw hspace rfl)
    . rcases exists_spaces more with ⟨k, cs, rfl, hhead⟩
      cases k with
      | zero => exact absurd hmore hhead
      | succ k =>
        rcases h.behindSpaces hhead with ⟨hne, hfollow⟩
        refine .more k (h.isWord hw hspace rfl) (ih cs.length ?_ hfollow hne rfl)
        rw [← hlength, List.length_append, List.length_append, List.length_replicate]
        omega

theorem words_of_allowsPlain (h : Style.allowsPlain cs = true) (hcs : cs ≠ []) : Words cs := by
  unfold Style.allowsPlain at h
  simp only [Bool.not_eq_true', Bool.or_eq_false_iff, beq_eq_false_iff_ne, ne_eq] at h
  rcases h with ⟨⟨⟨⟨⟨⟨hspecial, hbreak⟩, hhead⟩, hlast⟩, -⟩, hleading⟩, hinner⟩
  refine CanFollow.words ⟨?_, hhead, hlast, ?_⟩ hcs
  . intro c hc
    unfold Style.hasSpecial at hspecial
    unfold Style.isMultiline at hbreak
    rw [List.any_eq_false] at hspecial hbreak
    have hc' := hspecial c hc
    have hn : c ≠ '\n' := by
      rintro rfl
      exact hbreak _ hc rfl
    simpa [hn] using hc'
  . cases cs with
    | nil => exact absurd rfl hcs
    | cons c cs =>
      unfold Style.hasLeadingIndicator at hleading
      rw [Bool.or_eq_false_iff] at hleading
      rw [Style.hasInnerIndicator, hinner, Bool.or_false, Bool.or_eq_false_iff]
      constructor
      . rcases hleading with ⟨-, hend⟩
        by_cases hcolon : c = ':'
        . subst hcolon
          simpa using hend
        . simp [hcolon]
      . rcases hleading with ⟨hsign, -⟩
        by_cases hcomment : c = '#'
        . subst hcomment
          cases hsign
        . simp [hcomment]

namespace Style

variable {split : Bool}

theorem writePlain_cons (split : Bool) (indent column : Nat) (hc : c ≠ ' ') (cs : List Char) :
    writePlain split indent 0 column (c :: cs) =
      c :: writePlain split indent 0 (column + 1) cs := by
  rw [writePlain, if_neg (by simpa using hc), if_neg (by simp)]
  rfl

theorem writePlain_word (split : Bool) (indent column : Nat) (hw : ∀ c ∈ w, c ≠ ' ')
    (cs : List Char) :
    writePlain split indent 0 column (w ++ cs) =
      w ++ writePlain split indent 0 (column + w.length) cs := by
  induction w generalizing column with
  | nil => rfl
  | cons c w ih =>
    have hcolumn : column + 1 + w.length = column + (w.length + 1) := by omega
    rw [List.cons_append, writePlain_cons split indent column (hw c (.head _)),
      ih (column + 1) (fun d hd => hw d (.tail _ hd)), List.length_cons, hcolumn]
    rfl

theorem writePlain_spaces (spaces : Nat) (cs : List Char) :
    writePlain split indent spaces column (List.replicate k ' ' ++ cs) =
      writePlain split indent (spaces + k) column cs := by
  induction k generalizing spaces with
  | zero => rfl
  | succ k ih =>
    rw [List.replicate_succ, List.cons_append, writePlain, if_pos (beq_self_eq_true ' '), ih]
    congr 1
    omega

def IsGap (indent k : Nat) (gap : List Char) : Prop :=
  gap = List.replicate (k + 1) ' ' ∨ (k = 0 ∧ gap = newLine indent)

theorem exists_writePlain_gap (split : Bool) (indent k column : Nat) (hc : c ≠ ' ')
    (cs : List Char) :
    ∃ gap column', IsGap indent k gap
      ∧ writePlain split indent (k + 1) column (c :: cs) =
        gap ++ writePlain split indent 0 column' (c :: cs) := by
  rw [writePlain, if_neg (by simpa using hc)]
  split
  . next hlong =>
    refine ⟨newLine indent, indent, .inr ⟨?_, rfl⟩, ?_⟩
    . simp at hlong
      omega
    . rw [writePlain_cons split indent indent hc]
  . refine ⟨List.replicate (k + 1) ' ', column + (k + 1), .inl rfl, ?_⟩
    rw [writePlain_cons split indent _ hc]

end Style

theorem isWide_of_printable (h : Style.isPrintableAscii c = true) : Cursor.isWide c = true := by
  have hbreak := isBreak_of_printable h
  rw [isPrintableAscii_iff] at h
  unfold Cursor.isWide byteOrderMark
  rw [hbreak, Bool.not_false, Bool.true_and, bne_iff_ne, ne_eq]
  rintro rfl
  revert h
  decide

theorem IsWord.word_append (hw : IsWord w) (hmore : Plain.word false more = []) :
    Plain.word false (w ++ more) = w := by
  rcases hw with ⟨-, hprintable, hspace, -, hlast⟩
  induction w with
  | nil => exact hmore
  | cons c w ih =>
    have hblank := isBlank_of_printable (hprintable c (.head _)) (hspace c (.head _))
    have hbreak := isBreak_of_printable (hprintable c (.head _))
    -- a colon inside a word is followed by another character of the word
    have hcolon : (c == ':' && endsWord (w ++ more)) = false := by
      cases w with
      | nil =>
        have : c ≠ ':' := by
          rintro rfl
          exact hlast rfl
        simp [this]
      | cons d w =>
        have hd := hprintable d (.tail _ (.head _))
        simp [endsWord, isBreak_of_printable hd,
          isBlank_of_printable hd (hspace d (.tail _ (.head _)))]
    rw [List.cons_append, Plain.word, hblank, hbreak]
    simp only [Bool.or_self, Bool.false_and, Bool.or_false, hcolon, Bool.false_eq_true, if_false]
    rw [ih (fun d hd => hprintable d (.tail _ hd)) (fun d hd => hspace d (.tail _ hd))]
    intro hlast'
    apply hlast
    cases w with
    | nil => cases hlast'
    | cons d w => rwa [List.getLast?_cons_cons]

def IsContent (cs : List Char) : Prop :=
  ∀ c, cs.head? = some c → c ≠ ' ' ∧ c ≠ '#' ∧ Cursor.isWide c = true

theorem IsContent.head_ne_space (h : IsContent cs) (hc : cs.head? = some c) :
    (c == ' ') = false := by
  simpa using (h c hc).1

theorem IsContent.head_not_isBreak (h : IsContent cs) (hc : cs.head? = some c) :
    isBreak c = false := by
  have hwide := (h c hc).2.2
  unfold Cursor.isWide at hwide
  rw [Bool.and_eq_true, Bool.not_eq_true'] at hwide
  exact hwide.1

structure NextLine (tail : List Char) (column : Nat) (content : List Char) : Prop where
  eq : tail = List.replicate column ' ' ++ content
  isContent : IsContent content
  noMark : startsWithMark tail = false

theorem takeWhile_spaces (k : Nat) (h : IsContent more) :
    (List.replicate k ' ' ++ more).takeWhile (· == ' ') = List.replicate k ' ' := by
  rw [List.takeWhile_append_of_pos (by simp)]
  cases more with
  | nil => simp
  | cons c more => simp [(h c rfl).1]

namespace Plain

variable {p : Cursor}

theorem gap_spaces (k : Nat) (hp : List.replicate k ' ' ++ more <:+ p.rest)
    (h : IsContent more) :
    gap (p.skipTo (List.replicate k ' ' ++ more)) =
      ⟨List.replicate k ' ', p.skipTo more, false⟩ := by
  have hskip := Cursor.skip_skipTo hp
  have hbreak := Cursor.lineBreak?_eq_none (Cursor.suffix_of_append hp)
    (fun c hc => h.head_not_isBreak hc)
  unfold gap
  dsimp only
  rw [Cursor.rest_skipTo hp, takeWhile_spaces k h, hskip, hbreak]

theorem emptyLines_spaces (hp : List.replicate k ' ' ++ more <:+ p.rest) (h : IsContent more) :
    emptyLines (fuel + 1) (p.skipTo (List.replicate k ' ' ++ more)) =
      (some [], p.skipTo more) := by
  -- The spaces of an indentation are an empty line only if a line break follows them.
  have hspaces : (p.skipTo (List.replicate k ' ' ++ more)).skipWhile (· == ' ') = p.skipTo more :=
    Cursor.skipWhile_skipTo hp (by simp) (fun c hc => h.head_ne_space hc)
  have hbreak := Cursor.lineBreak?_eq_none (Cursor.suffix_of_append hp)
    (fun c hc => h.head_not_isBreak hc)
  unfold emptyLines
  dsimp only
  rw [hspaces, hbreak]

theorem gap_break (hp : '\n' :: tail <:+ p.rest) (h : NextLine tail column more) :
    gap (p.skipTo ('\n' :: tail)) = ⟨[' '], p.skipTo more, true⟩ := by
  have hrest := Cursor.rest_skipTo (Cursor.suffix_of_cons hp)
  unfold gap
  dsimp only
  rw [Cursor.rest_skipTo hp]
  have htake : ('\n' :: tail).takeWhile (· == ' ') = [] := rfl
  rw [htake, List.length_nil, Cursor.skip, Cursor.lineBreak?_newline hp]
  dsimp only
  rw [hrest, h.noMark, if_neg (by simp)]
  have hlines : emptyLines (tail.length + 1) (p.skipTo tail) = (some [], p.skipTo more) := by
    rw [h.eq] at hp ⊢
    exact emptyLines_spaces (Cursor.suffix_of_cons hp) h.isContent
  rw [hlines]
  rfl

theorem gap_written {gapText : List Char} (hgap : Style.IsGap indent k gapText)
    (hindent : 0 < indent) (hm : m ≤ indent) (hp : gapText ++ more <:+ p.rest) (h : IsContent more)
    (hcolumn : m ≤ (p.skipTo (gapText ++ more)).column) :
    ∃ crossesLine, gap (p.skipTo (gapText ++ more)) =
        ⟨List.replicate (k + 1) ' ', p.skipTo more, crossesLine⟩
      ∧ m ≤ (p.skipTo more).column := by
  rcases hgap with rfl | ⟨rfl, rfl⟩
  . refine ⟨false, gap_spaces (k + 1) hp h, ?_⟩
    have hwide : (List.replicate (k + 1) ' ').all Cursor.isWide = true := by
      rw [List.all_replicate]
      rfl
    have := (Cursor.column_skipTo hp hwide).1
    omega
  . refine ⟨true, gap_break hp ⟨rfl, h, startsWithMark_of_indented hindent more⟩, ?_⟩
    rw [Cursor.column_newLine_indented hp]
    exact hm

theorem opens_word (hw : IsWord w) (more : List Char) :
    ((w ++ more).head? == some '#' || w.isEmpty) = false := by
  have hne := hw.ne_nil
  have hhead := hw.head
  cases w with
  | nil => exact absurd rfl hne
  | cons c w => simpa using hhead

theorem scan_ends (hw : IsWord w) (hp : w ++ more <:+ p.rest) (hmore : word false more = [])
    (before : List Char) (crossed : Bool) {g : Gap} (hgap : gap (p.skipTo more) = g)
    (hends : g.text = [] ∨ g.after.column < m) :
    scan false m (fuel + 1) before crossed (p.skipTo (w ++ more)) =
      ⟨before ++ w, g.after, g.crossesLine⟩ := by
  have hopens := opens_word hw more
  unfold scan
  dsimp only
  rw [Cursor.rest_skipTo hp, hw.word_append hmore, hopens, Cursor.skip_skipTo hp, hgap]
  rcases hends with hends | hends
  . simp [hends]
  . simp [hends]

theorem scan_goes_on (hw : IsWord w) (hp : w ++ more <:+ p.rest) (hmore : word false more = [])
    (before : List Char) (crossed : Bool) {g : Gap} (hgap : gap (p.skipTo more) = g)
    (htext : g.text ≠ []) (hafter : IsContent g.after.rest) (hcolumn : m ≤ g.after.column) :
    scan false m (fuel + 1) before crossed (p.skipTo (w ++ more)) =
      { scan false m fuel g.text g.crossesLine g.after with
        text := before ++ w ++ (scan false m fuel g.text g.crossesLine g.after).text } := by
  have hopens := opens_word hw more
  have hcomment : g.after.rest.head? ≠ some '#' := by
    intro h
    exact (hafter '#' h).2.1 rfl
  rw [scan]
  dsimp only
  rw [Cursor.rest_skipTo hp, hw.word_append hmore, hopens, Cursor.skip_skipTo hp, hgap]
  simp [htext, hcomment, Nat.not_lt.mpr hcolumn]

end Plain

theorem IsWord.exists_cons (hw : IsWord w) :
    ∃ c w', w = c :: w' ∧ c ≠ ' ' ∧ c ≠ '#' ∧ Style.isPrintableAscii c = true := by
  have hne := hw.ne_nil
  cases w with
  | nil => exact absurd rfl hne
  | cons c w =>
    refine ⟨c, w, rfl, hw.no_space c (.head _), ?_, hw.printable c (.head _)⟩
    rintro rfl
    exact hw.head rfl

theorem IsWord.all_isWide (hw : IsWord w) : w.all Cursor.isWide = true := by
  rw [List.all_eq_true]
  intro c hc
  exact isWide_of_printable (hw.printable c hc)

theorem Style.IsGap.word_append {gap : List Char} (h : Style.IsGap indent k gap)
    (more : List Char) : Plain.word false (gap ++ more) = [] := by
  rcases h with rfl | ⟨-, rfl⟩
  . rfl
  . rfl

theorem Words.exists_cons (h : Words cs) :
    ∃ c cs', cs = c :: cs' ∧ c ≠ ' ' ∧ c ≠ '#' ∧ Style.isPrintableAscii c = true := by
  cases h with
  | last hw => exact hw.exists_cons
  | more k hw hcs =>
    rcases hw.exists_cons with ⟨c, w, rfl, hc⟩
    exact ⟨c, _, rfl, hc⟩

theorem Words.isContent_writePlain (h : Words cs) (split : Bool) (indent column : Nat)
    (more : List Char) :
    IsContent (Style.writePlain split indent 0 column cs ++ more) := by
  rcases h.exists_cons with ⟨c, cs, rfl, hc⟩
  rw [Style.writePlain_cons split indent column hc.1]
  intro d hd
  cases hd
  exact ⟨hc.1, hc.2.1, isWide_of_printable hc.2.2⟩

theorem scan_writePlain {split : Bool} {p : Cursor} (h : Words cs) (hindent : 0 < indent)
    (hm : m ≤ indent) (hnext : NextLine tail k more) (hk : k < m)
    (hp : Style.writePlain split indent 0 column cs ++ '\n' :: tail <:+ p.rest)
    (hcolumn : m ≤ (p.skipTo (Style.writePlain split indent 0 column cs ++ '\n' :: tail)).column)
    (hfuel : (Style.writePlain split indent 0 column cs).length < fuel) (before : List Char)
    (crossed : Bool) :
    Plain.scan false m fuel before crossed
        (p.skipTo (Style.writePlain split indent 0 column cs ++ '\n' :: tail)) =
      ⟨before ++ cs, p.skipTo more, true⟩ := by
  induction h generalizing column fuel before crossed with
  | @last w hw =>
    have hwrite := Style.writePlain_word split indent column hw.no_space []
    rw [List.append_nil] at hwrite
    rw [hwrite] at hp hfuel ⊢
    simp only [Style.writePlain, List.replicate_zero, List.append_nil] at hp hfuel ⊢
    cases fuel with
    | zero => cases hfuel
    | succ fuel =>
      have hgap := Plain.gap_break (Cursor.suffix_of_append hp) hnext
      rw [Plain.scan_ends hw hp rfl before crossed hgap]
      -- The next line is indented less than the scalar has to be.
      refine .inr ?_
      dsimp only
      have hbreak := Cursor.suffix_of_append hp
      rw [hnext.eq] at hbreak
      rw [Cursor.column_newLine_indented hbreak]
      exact hk
  | @more w cs spaces hw hcs ih =>
    rcases hcs.exists_cons with ⟨c, cs', hcons, hc⟩
    have hwrite := Style.writePlain_word split indent column hw.no_space
      (List.replicate (spaces + 1) ' ' ++ cs)
    rw [Style.writePlain_spaces, Nat.zero_add] at hwrite
    rw [hwrite] at hp hcolumn hfuel ⊢
    rcases Style.exists_writePlain_gap split indent spaces (column + w.length) hc.1 cs' with
      ⟨gap, column', hgap, hrest⟩
    rw [← hcons] at hrest
    rw [hrest] at hp hcolumn hfuel ⊢
    have hcontent := hcs.isContent_writePlain split indent column' ('\n' :: tail)
    simp only [List.append_assoc] at hp hcolumn ⊢
    cases fuel with
    | zero => cases hfuel
    | succ fuel =>
      have hbehind := Cursor.suffix_of_append hp
      have hword := (Cursor.column_skipTo hp hw.all_isWide).1
      have hstart : m ≤ (p.skipTo (gap ++ (Style.writePlain split indent 0 column' cs
          ++ '\n' :: tail))).column := by omega
      -- Whether or not the gap is written as a line break, it is read as the spaces that it was.
      rcases Plain.gap_written hgap hindent hm hbehind hcontent hstart with
        ⟨crossesLine, hread, hcolumn'⟩
      have hafter := Cursor.suffix_of_append hbehind
      rw [Plain.scan_goes_on hw hp (hgap.word_append _) before crossed hread (by simp)
        (by rwa [Cursor.rest_skipTo hafter]) hcolumn']
      have hpositive := List.length_pos_iff.mpr hw.ne_nil
      simp only [List.length_append] at hfuel
      rw [ih hafter hcolumn' (by omega)]
      simp

/-- A text without quotes is read back from what is written, up to the next line. -/
theorem readPlain_writePlain {split : Bool} {p : Cursor} (h : Words cs) (hindent : 0 < indent)
    (hm : m ≤ indent) (hnext : NextLine tail k more) (hk : k < m)
    (hp : Style.writePlain split indent 0 column cs ++ '\n' :: tail <:+ p.rest)
    (hcolumn :
      m ≤ (p.skipTo (Style.writePlain split indent 0 column cs ++ '\n' :: tail)).column) :
    readPlain false m (p.skipTo (Style.writePlain split indent 0 column cs ++ '\n' :: tail)) =
      ⟨cs, p.skipTo more, true⟩ := by
  unfold readPlain
  rw [scan_writePlain h hindent hm hnext hk hp hcolumn]
  . rfl
  . rw [Cursor.rest_skipTo hp, List.length_append]
    omega

theorem readPlain_key {p : Cursor} (hw : IsWord w) (hp : w ++ ':' :: more <:+ p.rest)
    (hmore : endsWord more = true) :
    readPlain false m (p.skipTo (w ++ ':' :: more)) = ⟨w, p.skipTo (':' :: more), false⟩ := by
  have hcontent : IsContent (':' :: more) := by
    intro c hc
    cases hc
    decide
  have hword : Plain.word false (':' :: more) = [] := by
    rw [Plain.word, if_neg (by decide), if_pos (by simp [hmore])]
  have hgap := Plain.gap_spaces 0 (Cursor.suffix_of_append hp) hcontent
  unfold readPlain
  rw [Plain.scan_ends hw hp hword [] false hgap (.inl rfl)]
  rfl

end Yaml
end NodeSettings
