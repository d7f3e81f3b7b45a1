import NodeSettings.Yaml.Cursor

/-!
This module contains positions in documents: a position is known by the characters that are still to
come.
-/

namespace NodeSettings
namespace Yaml
namespace Cursor

variable {p : Cursor} {cs front rest : List Char} {c : Char} {n : Nat}

theorem rest_next (p : Cursor) : p.next.rest = p.rest.drop 1 := by
  unfold next
  split
  . next h => rw [h, List.drop_nil]
  . next h =>
    rw [h]
    split
    . rfl
    . split <;> rfl

theorem rest_skip (p : Cursor) (n : Nat) : (p.skip n).rest = p.rest.drop n := by
  induction n generalizing p with
  | zero => rfl
  | succ n ih =>
    rw [skip, ih, rest_next, List.drop_drop, Nat.add_comm]

theorem skip_add (p : Cursor) (m n : Nat) : (p.skip m).skip n = p.skip (m + n) := by
  induction m generalizing p with
  | zero => rw [Nat.zero_add, skip]
  | succ m ih => rw [skip, ih, Nat.add_right_comm, skip]

theorem rest_skipTo (h : rest <:+ p.rest) : (p.skipTo rest).rest = rest := by
  rcases h with ⟨front, hfront⟩
  rw [skipTo, rest_skip, ← hfront]
  simp

theorem skip_skipTo (h : front ++ rest <:+ p.rest) :
    (p.skipTo (front ++ rest)).skip front.length = p.skipTo rest := by
  have hlength := h.length_le
  rw [List.length_append] at hlength
  rw [skipTo, skipTo, skip_add, List.length_append]
  congr 1
  omega

theorem next_skipTo (h : c :: rest <:+ p.rest) : (p.skipTo (c :: rest)).next = p.skipTo rest :=
  skip_skipTo (show [c] ++ rest <:+ p.rest from h)

theorem skip_one (h : c :: rest <:+ p.rest) :
    (p.skipTo (c :: rest)).skip 1 = p.skipTo rest :=
  next_skipTo h

theorem skipTo_skipTo (h : front ++ rest <:+ p.rest) :
    (p.skipTo (front ++ rest)).skipTo rest = p.skipTo rest := by
  rw [← skip_skipTo h, skipTo, rest_skipTo h]
  simp

theorem suffix_of_append (h : front ++ rest <:+ p.rest) : rest <:+ p.rest :=
  (List.suffix_append front rest).trans h

theorem suffix_of_cons (h : c :: rest <:+ p.rest) : rest <:+ p.rest :=
  (List.suffix_cons c rest).trans h

theorem length_rest_lt (h : c :: rest <:+ p.rest) :
    (p.skipTo rest).rest.length < (p.skipTo (c :: rest)).rest.length := by
  rw [rest_skipTo (suffix_of_cons h), rest_skipTo h]
  exact Nat.lt_succ_self _

def isWide (c : Char) : Bool :=
  !isBreak c && c != byteOrderMark

theorem column_next (h : c :: rest <:+ p.rest) (hc : isWide c = true) :
    (p.skipTo rest).column = (p.skipTo (c :: rest)).column + 1
      ∧ (p.skipTo rest).line = (p.skipTo (c :: rest)).line := by
  rw [← next_skipTo h, next, rest_skipTo h]
  simp only [isWide, Bool.and_eq_true, Bool.not_eq_true', bne_iff_ne, ne_eq] at hc
  simp [hc]

theorem column_skipTo (h : front ++ rest <:+ p.rest) (hfront : front.all isWide = true) :
    (p.skipTo rest).column = (p.skipTo (front ++ rest)).column + front.length
      ∧ (p.skipTo rest).line = (p.skipTo (front ++ rest)).line := by
  induction front with
  | nil => exact ⟨rfl, rfl⟩
  | cons c front ih =>
    rw [List.all_cons, Bool.and_eq_true] at hfront
    have htail := ih (suffix_of_cons h) hfront.2
    have hnext := column_next (show c :: (front ++ rest) <:+ p.rest from h) hfront.1
    rw [List.cons_append, List.length_cons]
    omega

theorem column_newline (h : '\n' :: rest <:+ p.rest) :
    (p.skipTo rest).column = 0 ∧ (p.skipTo rest).line = (p.skipTo ('\n' :: rest)).line + 1 := by
  rw [← next_skipTo h, next, rest_skipTo h]
  simp [isBreak]

theorem column_newLine_indented (h : '\n' :: (List.replicate n ' ' ++ rest) <:+ p.rest) :
    (p.skipTo rest).column = n := by
  have hstart := (column_newline h).1
  have hwide : (List.replicate n ' ').all isWide = true := by
    rw [List.all_replicate]
    split
    . rfl
    . decide
  have hindented := (column_skipTo (suffix_of_cons h) hwide).1
  rw [hstart, List.length_replicate] at hindented
  omega

theorem index_next (h : c :: rest <:+ p.rest) :
    (p.skipTo rest).index = (p.skipTo (c :: rest)).index + 1 := by
  rw [← next_skipTo h, next, rest_skipTo h]
  dsimp only
  split
  . rfl
  . split <;> rfl

theorem index_skipTo (h : front ++ rest <:+ p.rest) :
    (p.skipTo rest).index = (p.skipTo (front ++ rest)).index + front.length := by
  induction front with
  | nil => rfl
  | cons c front ih =>
    have htail := ih (suffix_of_cons h)
    have hnext := index_next (show c :: (front ++ rest) <:+ p.rest from h)
    rw [List.cons_append, List.length_cons]
    omega

theorem line_le_next (p : Cursor) : p.line ≤ p.next.line := by
  unfold next
  split
  . exact Nat.le_refl _
  . split
    . exact Nat.le_succ _
    . split <;> exact Nat.le_refl _

theorem line_le_skipTo (h : front ++ rest <:+ p.rest) :
    (p.skipTo (front ++ rest)).line ≤ (p.skipTo rest).line := by
  induction front with
  | nil => exact Nat.le_refl _
  | cons c front ih =>
    have htail := ih (suffix_of_cons h)
    have hnext := line_le_next (p.skipTo (c :: (front ++ rest)))
    rw [next_skipTo (show c :: (front ++ rest) <:+ p.rest from h)] at hnext
    rw [List.cons_append]
    omega

theorem line_lt_skipTo (h : front ++ rest <:+ p.rest) (hfront : '\n' ∈ front) :
    (p.skipTo (front ++ rest)).line < (p.skipTo rest).line := by
  rcases List.append_of_mem hfront with ⟨before, behind, rfl⟩
  rw [List.append_assoc, List.cons_append] at h ⊢
  have hbreak := suffix_of_append h
  have hbefore := line_le_skipTo h
  have hnext := (column_newline hbreak).2
  have hbehind := line_le_skipTo (show behind ++ rest <:+ p.rest from suffix_of_cons hbreak)
  omega

theorem skipWhile_skipTo {kind : Char → Bool} (h : front ++ rest <:+ p.rest)
    (hfront : front.all kind = true) (hrest : ∀ c, rest.head? = some c → kind c = false) :
    (p.skipTo (front ++ rest)).skipWhile kind = p.skipTo rest := by
  have htake : (front ++ rest).takeWhile kind = front := by
    rw [List.takeWhile_append_of_pos]
    . cases rest with
      | nil => simp
      | cons c rest => simp [hrest c rfl]
    . rwa [List.all_eq_true] at hfront
  rw [skipWhile, rest_skipTo h, htake, skip_skipTo h]

theorem lineBreak?_newline (h : '\n' :: rest <:+ p.rest) :
    (p.skipTo ('\n' :: rest)).lineBreak? = some ('\n', p.skipTo rest) := by
  unfold lineBreak?
  rw [rest_skipTo h, next_skipTo h]
  rfl

theorem lineBreak?_eq_none (h : rest <:+ p.rest)
    (hrest : ∀ c, rest.head? = some c → isBreak c = false) :
    (p.skipTo rest).lineBreak? = none := by
  unfold lineBreak?
  rw [rest_skipTo h]
  cases rest with
  | nil => rfl
  | cons c rest =>
    have hbreak := hrest c rfl
    simp only [isBreak, Bool.or_eq_false_iff, beq_eq_false_iff_ne, ne_eq] at hbreak
    split
    . next heq =>
      cases heq
      simp at hbreak
    . unfold Yaml.lineBreak?
      simp [hbreak]

end Cursor
end Yaml
end NodeSettings
