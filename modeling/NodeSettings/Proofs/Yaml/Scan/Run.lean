import NodeSettings.Proofs.Yaml.PlainScalar
import NodeSettings.Yaml.Scan

/-!
This module contains the reading of tokens one after the other. The scanner is followed from one
token to the next, each time from behind the gap in front of the token.
-/

namespace NodeSettings
namespace Yaml

namespace Cursor

variable {p q : Cursor} {c : Char}

theorem skip_suffix (p : Cursor) (n : Nat) : (p.skip n).rest <:+ p.rest := by
  rw [rest_skip]
  apply List.drop_suffix

theorem skipComment_suffix (p : Cursor) : p.skipComment.rest <:+ p.rest := by
  unfold skipComment
  split
  . apply skip_suffix
  . apply List.suffix_refl

theorem lineBreak?_suffix (h : p.lineBreak? = some (c, q)) : q.rest <:+ p.rest := by
  unfold lineBreak? at h
  split at h
  . cases h
    apply skip_suffix
  . rw [Option.map_eq_some_iff] at h
    rcases h with ⟨a, -, ha⟩
    cases ha
    apply skip_suffix p 1

end Cursor

namespace Scanner

variable {s t c c' c'' : Scanner}

theorem skipGaps_suffix (fuel : Nat) (s : Scanner) :
    (skipGaps fuel s).cursor.rest <:+ s.cursor.rest := by
  induction fuel generalizing s with
  | zero => apply List.suffix_refl
  | succ fuel ih =>
    unfold skipGaps
    have hgap := (s.cursor.skipWhile (· == ' ')).skipComment_suffix.trans
      (Cursor.skip_suffix s.cursor _)
    dsimp only
    split
    . exact hgap
    . next q hbreak => exact (ih _).trans ((Cursor.lineBreak?_suffix hbreak).trans hgap)

theorem toNextToken_suffix (s : Scanner) : s.toNextToken.cursor.rest <:+ s.cursor.rest := by
  unfold toNextToken
  dsimp only
  refine (skipGaps_suffix _ _).trans ?_
  dsimp only
  split
  . apply Cursor.skip_suffix s.cursor 1
  . apply List.suffix_refl

theorem cursor_dropStale (h : s.dropStale = .ok t) : t.cursor = s.cursor := by
  unfold dropStale at h
  rw [Except.bind_eq_ok_iff] at h
  rcases h with ⟨outer, -, h⟩
  rw [Except.bind_eq_ok_iff] at h
  rcases h with ⟨candidate, -, h⟩
  cases h
  rfl

theorem cursor_unwindTo (column : Int) (fuel : Nat) (s : Scanner) :
    (unwindTo column fuel s).cursor = s.cursor := by
  induction fuel generalizing s with
  | zero => rfl
  | succ fuel ih =>
    unfold unwindTo
    split
    . split
      . rfl
      . rw [ih]
        rfl
    . rfl

theorem cursor_unwind (s : Scanner) (column : Int) : (s.unwind column).cursor = s.cursor := by
  unfold unwind
  split
  . rfl
  . apply cursor_unwindTo

def ready (s : Scanner) : Except Fault Scanner := do
  let s ← s.toNextToken.dropStale
  return s.unwind s.cursor.column

theorem step_eq (s : Scanner) : s.step = s.ready >>= token := by
  unfold step ready
  cases s.toNextToken.dropStale <;> rfl

theorem length_ready (h : s.ready = .ok c) : c.cursor.rest.length ≤ s.cursor.rest.length := by
  unfold ready at h
  rw [Except.bind_eq_ok_iff] at h
  rcases h with ⟨t, ht, h⟩
  cases h
  rw [cursor_unwind, cursor_dropStale ht]
  exact s.toNextToken_suffix.length_le

/--
A run that gets to a token gets to another one. It takes a step for each token, and there are no
more of these than characters.
-/
def Leads (c c' : Scanner) : Prop :=
  ∀ s : Scanner, s.ready = .ok c → ∃ t n, t.ready = .ok c'
    ∧ n + t.cursor.rest.length ≤ s.cursor.rest.length ∧ ∀ fuel, run (fuel + n) s = run fuel t

theorem Leads.trans (h : Leads c c') (h' : Leads c' c'') : Leads c c'' := by
  intro s hs
  rcases h s hs with ⟨t, n, ht, hn, hrun⟩
  rcases h' t ht with ⟨u, n', hu, hn', hrun'⟩
  refine ⟨u, n' + n, hu, by omega, ?_⟩
  intro fuel
  rw [← Nat.add_assoc, hrun, hrun']

theorem leads_of_token (h : c.token = .ok t) (ht : t.ready = .ok c')
    (hend : t.tokens.head? ≠ some .streamEnd)
    (hless : t.cursor.rest.length < c.cursor.rest.length) : Leads c c' := by
  intro s hs
  have hlength := length_ready hs
  have hstep : s.step = .ok t := by
    rw [step_eq, hs]
    exact h
  refine ⟨t, 1, ht, by omega, ?_⟩
  intro fuel
  rw [run, hstep]
  dsimp only
  rw [if_neg (by simpa using hend)]

theorem Leads.run_eq (h : Leads c c') (hs : s.ready = .ok c) (ht : c'.token = .ok t)
    (hend : t.tokens.head? = some .streamEnd) {fuel : Nat}
    (hfuel : s.cursor.rest.length < fuel) : run fuel s = t.tokens.reverse := by
  rcases h s hs with ⟨u, n, hu, hn, hrun⟩
  have hstep : u.step = .ok t := by
    rw [step_eq, hu]
    exact ht
  -- One step more is left when the run has got there.
  have hsplit : fuel = (fuel - n - 1 + 1) + n := by omega
  rw [hsplit, hrun, run, hstep]
  dsimp only
  rw [if_pos (by simpa using hend)]

variable {p : Cursor} {content tail more : List Char} {k fuel : Nat}

theorem skipComment_content (hp : content <:+ p.rest) (h : IsContent content) :
    (p.skipTo content).skipComment = p.skipTo content := by
  unfold Cursor.skipComment
  rw [Cursor.rest_skipTo hp, if_neg]
  intro hcomment
  exact (h '#' (by simpa using hcomment)).2.1 rfl

theorem skipGaps_spaces (hs : s.cursor = p.skipTo (List.replicate k ' ' ++ content))
    (hp : List.replicate k ' ' ++ content <:+ p.rest) (h : IsContent content) :
    skipGaps (fuel + 1) s = { s with cursor := p.skipTo content } := by
  have hcontent := Cursor.suffix_of_append hp
  have hspaces : (p.skipTo (List.replicate k ' ' ++ content)).skipWhile (· == ' ') =
      p.skipTo content :=
    Cursor.skipWhile_skipTo hp (by simp) (fun c hc => h.head_ne_space hc)
  have hbreak := Cursor.lineBreak?_eq_none hcontent (fun c hc => h.head_not_isBreak hc)
  rw [skipGaps, hs, hspaces, skipComment_content hcontent h]
  rw [hbreak]

theorem skipGaps_break {column : Nat} (hs : s.cursor = p.skipTo ('\n' :: tail))
    (hp : '\n' :: tail <:+ p.rest) (h : NextLine tail column content) :
    skipGaps (fuel + 2) s =
      { s with cursor := p.skipTo content, allowsKey := s.allowsKey || !s.inFlow } := by
  have hspaces : (p.skipTo ('\n' :: tail)).skipWhile (· == ' ') = p.skipTo ('\n' :: tail) :=
    Cursor.skipWhile_skipTo (show [] ++ '\n' :: tail <:+ p.rest from hp) rfl (by simp)
  have hcomment : (p.skipTo ('\n' :: tail)).skipComment = p.skipTo ('\n' :: tail) := by
    unfold Cursor.skipComment
    rw [Cursor.rest_skipTo hp]
    rfl
  rw [skipGaps, hs, hspaces, hcomment]
  rw [Cursor.lineBreak?_newline hp]
  dsimp only
  have htail := Cursor.suffix_of_cons hp
  rw [h.eq] at htail ⊢
  rw [skipGaps_spaces rfl htail h.isContent]

theorem noByteOrderMark (hp : more <:+ p.rest) (hmore : more.head? ≠ some byteOrderMark) :
    ((p.skipTo more).index == 0 && (p.skipTo more).rest.head? == some byteOrderMark) = false := by
  rw [Cursor.rest_skipTo hp, Bool.and_eq_false_iff]
  exact .inr (by simpa using hmore)

theorem toNextToken_spaces (hs : s.cursor = p.skipTo (List.replicate k ' ' ++ content))
    (hp : List.replicate k ' ' ++ content <:+ p.rest) (h : IsContent content) :
    s.toNextToken = { s with cursor := p.skipTo content } := by
  have hmark : (List.replicate k ' ' ++ content).head? ≠ some byteOrderMark := by
    cases k with
    | zero =>
      intro hhead
      have hwide := (h byteOrderMark hhead).2.2
      revert hwide
      decide
    | succ k =>
      intro hhead
      cases hhead
  unfold toNextToken
  dsimp only
  rw [hs, noByteOrderMark hp hmark, if_neg (by simp), skipGaps_spaces rfl hp h]

theorem toNextToken_break {column : Nat} (hs : s.cursor = p.skipTo ('\n' :: tail))
    (hp : '\n' :: tail <:+ p.rest) (h : NextLine tail column content) :
    s.toNextToken =
      { s with cursor := p.skipTo content, allowsKey := s.allowsKey || !s.inFlow } := by
  have hmark : ('\n' :: tail).head? ≠ some byteOrderMark := by
    intro hhead
    cases hhead
  unfold toNextToken
  dsimp only
  rw [hs, noByteOrderMark hp hmark, if_neg (by simp), Cursor.rest_skipTo hp, List.length_cons,
    skipGaps_break rfl hp h]
  rfl

def inBlock (p : Cursor) (rest : List Char) (tokens : List Token) (indent : Int)
    (outerIndents : List Int) (allowsKey : Bool) : Scanner where
  cursor := p.skipTo rest
  tokens := tokens
  count := tokens.length
  indent := indent
  outerIndents := outerIndents
  allowsKey := allowsKey

variable {tokens : List Token} {indent : Int} {outer : List Int} {allowsKey : Bool}

theorem ready_inBlock (tokens : List Token) (indent : Int) (outer : List Int) (allowsKey : Bool)
    (hp : List.replicate k ' ' ++ content <:+ p.rest) (h : IsContent content) :
    (inBlock p (List.replicate k ' ' ++ content) tokens indent outer allowsKey).ready =
      .ok ((inBlock p content tokens indent outer allowsKey).unwind
        (p.skipTo content).column) := by
  unfold ready
  rw [toNextToken_spaces rfl hp h]
  rfl

theorem ready_inBlock_break (tokens : List Token) (indent : Int) (outer : List Int)
    (allowsKey : Bool) {column : Nat} (hp : '\n' :: tail <:+ p.rest)
    (h : NextLine tail column content) :
    (inBlock p ('\n' :: tail) tokens indent outer allowsKey).ready =
      .ok ((inBlock p content tokens indent outer true).unwind column) := by
  have hcolumn : (p.skipTo content).column = column := by
    rw [h.eq] at hp
    exact Cursor.column_newLine_indented hp
  unfold ready
  rw [toNextToken_break rfl hp h, ← hcolumn]
  cases allowsKey <;> rfl

theorem unwind_inBlock_of_lt {indent' : Int} {column : Int} (h : column < indent) :
    (inBlock p content tokens indent (indent' :: outer) allowsKey).unwind column =
      (inBlock p content (.blockEnd :: tokens) indent' outer allowsKey).unwind column := by
  have hless : column < (inBlock p content tokens indent (indent' :: outer) allowsKey).indent := h
  show unwindTo column (outer.length + 1 + 1) _ = unwindTo column (outer.length + 1) _
  rw [unwindTo, if_pos hless]
  rfl

theorem unwind_of_le {column : Int} (h : s.indent ≤ column) : s.unwind column = s := by
  unfold unwind
  split
  . rfl
  . rw [unwindTo, if_neg (Int.not_lt.mpr h)]

theorem unwind_inBlock_of_le {column : Int} (h : indent ≤ column) :
    (inBlock p content tokens indent outer allowsKey).unwind column =
      inBlock p content tokens indent outer allowsKey :=
  unwind_of_le h

end Scanner
end Yaml
end NodeSettings
