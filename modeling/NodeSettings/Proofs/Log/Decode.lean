import Mathlib.Data.List.Chain
import NodeSettings.Log.Json
import NodeSettings.Proofs.Digits
import NodeSettings.Proofs.Except
import NodeSettings.Proofs.Text

/-!
This module contains the reading of JSON, and that a value that JSON has a form for is read back
from what is written for it.
-/

namespace NodeSettings

namespace CodePoint

/-- The character that a surrogate of the first kind stands for with one of the second behind it. -/
def pair? : CodePoint → CodePoint → Option Char
  | .surrogate m, .surrogate n =>
    if m.val < 0x400 ∧ 0x400 ≤ n.val then
      some (Char.ofNat (0x10000 + m.val * 0x400 + (n.val - 0x400)))
    else none
  | _, _ => none

def joinPairs : List CodePoint → List CodePoint
  | p :: q :: points =>
    match pair? p q with
    | some c => .char c :: joinPairs points
    | none => p :: joinPairs (q :: points)
  | points => points

end CodePoint

def Text.IsWhole (t : Text) : Prop :=
  t.points.IsChain fun p q => p.pair? q = none

instance (t : Text) : Decidable t.IsWhole :=
  inferInstanceAs (Decidable (List.IsChain _ _))

namespace Json

def isSpace (c : Char) : Bool :=
  c == ' ' || c == '\t' || c == '\n' || c == '\r'

def skipSpaces (cs : List Char) : List Char :=
  cs.dropWhile isSpace

def escaped? : Char → Option Char
  | '"' => some '"'
  | '\\' => some '\\'
  | '/' => some '/'
  | 'b' => some '\x08'
  | 'f' => some '\x0c'
  | 'n' => some '\n'
  | 'r' => some '\r'
  | 't' => some '\t'
  | _ => none

def unit? (cs : List Char) : Option CodePoint := do
  let digits ← cs.mapM Text.hexValue?
  CodePoint.ofNat? (Text.ofDigits 16 0 digits)

def readPoints : List Char → Option (List CodePoint × List Char)
  | [] => none
  | '"' :: cs => some ([], cs)
  | '\\' :: 'u' :: a :: b :: c :: d :: cs => do
    let p ← unit? [a, b, c, d]
    (readPoints cs).map fun (points, rest) => (p :: points, rest)
  | '\\' :: c :: cs => do
    let c ← escaped? c
    (readPoints cs).map fun (points, rest) => (.char c :: points, rest)
  | c :: cs =>
    if c.toNat < 32 then none
    else (readPoints cs).map fun (points, rest) => (.char c :: points, rest)

def readText (cs : List Char) : Option (Text × List Char) :=
  (readPoints cs).map fun (points, rest) => (⟨CodePoint.joinPairs points⟩, rest)

def readFraction : List Char → Option (List Char × List Char)
  | '.' :: cs =>
    let (digits, rest) := cs.span Char.isDigit
    if digits.isEmpty then none else some (digits, rest)
  | cs => some ([], cs)

def splitSign : List Char → Bool × List Char
  | '-' :: cs => (true, cs)
  | '+' :: cs => (false, cs)
  | cs => (false, cs)

def readExponent (cs : List Char) : Option (Option Int × List Char) :=
  match cs with
  | c :: rest =>
    if c = 'e' ∨ c = 'E' then
      let (negative, rest) := splitSign rest
      let (digits, rest) := rest.span Char.isDigit
      let n : Int := Text.decimalValue digits
      if digits.isEmpty then none else some (some (if negative then -n else n), rest)
    else some (none, cs)
  | [] => some (none, [])

/--
A number without its sign. It has no zero in front, and without fraction and exponent it is whole.
-/
def readMagnitude (negative : Bool) (cs : List Char) : Option (Value × List Char) := do
  let (whole, cs) := cs.span Char.isDigit
  if whole.isEmpty || (whole.head? == some '0' && 1 < whole.length) then none
  else
    let (fraction, cs) ← readFraction cs
    let (exponent, cs) ← readExponent cs
    let n := Text.decimalValue (whole ++ fraction)
    if fraction.isEmpty && exponent.isNone then
      return (.integer (if negative then -n else n), cs)
    else return (.float (.ofDecimal negative n (exponent.getD 0 - fraction.length)), cs)

def readScalar : List Char → Option (Value × List Char)
  | 'n' :: 'u' :: 'l' :: 'l' :: cs => some (.null, cs)
  | 't' :: 'r' :: 'u' :: 'e' :: cs => some (.boolean true, cs)
  | 'f' :: 'a' :: 'l' :: 's' :: 'e' :: cs => some (.boolean false, cs)
  | '-' :: cs => readMagnitude true cs
  | cs => readMagnitude false cs

mutual

def readValue : Nat → List Char → Option (Value × List Char)
  | 0, _ => none
  | limit + 1, cs =>
    match skipSpaces cs with
    | '"' :: cs => (readText cs).map fun (t, rest) => (.text t, rest)
    | '[' :: cs =>
      match skipSpaces cs with
      | ']' :: rest => some (.list [], rest)
      | _ => (readItems limit cs).map fun (items, rest) => (.list items, rest)
    | '\x7b' :: cs =>
      match skipSpaces cs with
      | '\x7d' :: rest => some (.map [], rest)
      | _ => (readMembers limit cs).map fun (entries, rest) => (.map entries, rest)
    | cs => readScalar cs

def readItems : Nat → List Char → Option (List Value × List Char)
  | 0, _ => none
  | limit + 1, cs => do
    let (x, rest) ← readValue limit cs
    match skipSpaces rest with
    | ']' :: rest => return ([x], rest)
    | ',' :: rest => (readItems limit rest).map fun (items, rest) => (x :: items, rest)
    | _ => none

def readMembers : Nat → List Char → Option (List (Value × Value) × List Char)
  | 0, _ => none
  | limit + 1, cs =>
    match skipSpaces cs with
    | '"' :: cs => do
      let (key, rest) ← readText cs
      match skipSpaces rest with
      | ':' :: rest => do
        let (x, rest) ← readValue limit rest
        match skipSpaces rest with
        | '\x7d' :: rest => return ([(.text key, x)], rest)
        | ',' :: rest =>
          (readMembers limit rest).map fun (entries, rest) => ((.text key, x) :: entries, rest)
        | _ => none
      | _ => none
    | _ => none

end

def decode (s : String) : Option Value := do
  let (v, rest) ← readValue (s.toList.length + 1) s.toList
  if (skipSpaces rest).isEmpty then some v else none

section

variable {cs rest : List Char} {c : Char} {n : Nat} {p q : CodePoint} {points : List CodePoint}

open CodePoint

inductive Encodes (c : Char) : List Char → Prop where
  | short {letter : Char} (h : escaped? letter = some c) (hlt : c.toNat < 0x10000) :
    Encodes c ['\\', letter]
  | plain (hquote : c ≠ '"') (hslash : c ≠ '\\') (h : 32 ≤ c.toNat) (hlt : c.toNat < 0x10000) :
    Encodes c [c]
  | unit (h : c.toNat < 0x10000) : Encodes c (unitEscape c.toNat)
  | pair {n : Nat} (h : c.toNat = 0x10000 + n) (hn : n < 0x100000) :
    Encodes c (unitEscape (0xD800 + n / 0x400) ++ unitEscape (0xDC00 + n % 0x400))

theorem encodes_encodeChar (c : Char) : Encodes c (encodeChar c) := by
  have hvalid : c.toNat < 0xD800 ∨ (0xDFFF < c.toNat ∧ c.toNat < 0x110000) := c.valid
  unfold encodeChar
  split
  . next h =>
    rw [Bool.or_eq_true, beq_iff_eq, beq_iff_eq] at h
    rcases h with rfl | rfl
    . exact .short rfl (by decide)
    . exact .short rfl (by decide)
  . next hspecial =>
    rw [Bool.or_eq_true, beq_iff_eq, beq_iff_eq, not_or] at hspecial
    iterate 5
      split
      . next h =>
        rw [beq_iff_eq] at h
        rw [h]
        exact .short rfl (by decide)
    split
    . next h =>
      rw [Bool.and_eq_true, decide_eq_true_eq, decide_eq_true_eq] at h
      exact .plain hspecial.1 hspecial.2 h.1 (by omega)
    . split
      . next h => exact .unit h
      . exact .pair (by omega) (by omega)

def halves : CodePoint → List CodePoint
  | .char c =>
    if c.toNat < 0x10000 then [.char c]
    else
      let n := c.toNat - 0x10000
      [.surrogate (Fin.ofNat 0x800 (n / 0x400)), .surrogate (Fin.ofNat 0x800 (0x400 + n % 0x400))]
  | .surrogate n => [.surrogate n]

theorem halves_of_lt (h : c.toNat < 0x10000) : halves (.char c) = [.char c] := by
  rw [halves, if_pos h]

theorem halves_of_pair (h : c.toNat = 0x10000 + n) :
    halves (.char c) =
      [.surrogate (Fin.ofNat 0x800 (n / 0x400)),
        .surrogate (Fin.ofNat 0x800 (0x400 + n % 0x400))] := by
  rw [halves, if_neg (by omega), h, Nat.add_sub_cancel_left]

theorem ofNat?_surrogate (h : n < 0x800) :
    ofNat? (0xD800 + n) = some (.surrogate (Fin.ofNat 0x800 n)) := by
  have hpoint := ofNat?_toNat (.surrogate (Fin.ofNat 0x800 n))
  rwa [CodePoint.toNat, Fin.val_ofNat, Nat.mod_eq_of_lt h] at hpoint

theorem readPoints_unitEscape (hn : n < 0x10000) (hp : ofNat? n = some p) (cs : List Char) :
    readPoints (unitEscape n ++ cs) =
      (readPoints cs).map fun (points, rest) => (p :: points, rest) := by
  have hlength : (Text.hexadecimal 4 n).length = 4 := Text.length_hexadecimal hn (by decide)
  rcases Text.exists_digits_hexadecimal 4 n with ⟨ds, hds, hlt, hvalue⟩
  have hunit : unit? (Text.hexadecimal 4 n) = some p := by
    rw [unit?, hds, Text.mapM_hexValue? (by decide) hlt]
    show ofNat? (Text.ofDigits 16 0 ds) = some p
    rw [hvalue, hp]
  unfold unitEscape
  generalize Text.hexadecimal 4 n = digits at hlength hunit
  rcases digits with _ | ⟨a, _ | ⟨b, _ | ⟨c, _ | ⟨d, _ | ⟨_, _⟩⟩⟩⟩⟩
  . cases hlength
  . cases hlength
  . cases hlength
  . cases hlength
  . show readPoints ('\\' :: 'u' :: a :: b :: c :: d :: cs) = _
    rw [readPoints, hunit]
    rfl
  . cases hlength

theorem readPoints_shortEscape {letter : Char} (hc : escaped? letter = some c) (cs : List Char) :
    readPoints ('\\' :: letter :: cs) =
      (readPoints cs).map fun (points, rest) => (.char c :: points, rest) := by
  rw [readPoints, hc]
  . rfl
  . rintro _ _ _ _ _ rfl
    cases hc

theorem readPoints_plain (hquote : c ≠ '"') (hslash : c ≠ '\\') (hc : 32 ≤ c.toNat)
    (cs : List Char) :
    readPoints (c :: cs) =
      (readPoints cs).map fun (points, rest) => (.char c :: points, rest) := by
  rw [readPoints, if_neg (Nat.not_lt.mpr hc)]
  . exact hquote
  . intro _ _ _ _ _ h
    exact absurd h hslash
  . intro _ _ h
    exact absurd h hslash

theorem readPoints_encodePoint (p : CodePoint) (cs : List Char) :
    readPoints (encodePoint p ++ cs) =
      (readPoints cs).map fun (points, rest) => (halves p ++ points, rest) := by
  cases p with
  | surrogate n =>
    have hn : 0xD800 + n.val < 0x10000 := by
      have := n.isLt
      omega
    exact readPoints_unitEscape hn (ofNat?_toNat (.surrogate n)) cs
  | char c =>
    have hencodes := encodes_encodeChar c
    rw [encodePoint]
    generalize encodeChar c = written at hencodes ⊢
    cases hencodes with
    | short h hlt =>
      rw [halves_of_lt hlt]
      exact readPoints_shortEscape h cs
    | plain hquote hslash h hlt =>
      rw [halves_of_lt hlt]
      exact readPoints_plain hquote hslash h cs
    | unit h =>
      rw [halves_of_lt h]
      exact readPoints_unitEscape h (ofNat?_toNat (.char c)) cs
    | @pair n h hn =>
      have hlow : 0xDC00 + n % 0x400 = 0xD800 + (0x400 + n % 0x400) := by omega
      rw [halves_of_pair h, List.append_assoc,
        readPoints_unitEscape (by omega) (ofNat?_surrogate (by omega)), hlow,
        readPoints_unitEscape (by omega) (ofNat?_surrogate (by omega)), Option.map_map]
      rfl

theorem readPoints_flatMap (points : List CodePoint) (rest : List Char) :
    readPoints (points.flatMap encodePoint ++ '"' :: rest) =
      some (points.flatMap halves, rest) := by
  induction points with
  | nil => rfl
  | cons p points ih =>
    rw [List.flatMap_cons, List.flatMap_cons, List.append_assoc, readPoints_encodePoint, ih]
    rfl

theorem pair?_halves (h : c.toNat = 0x10000 + n) (hn : n < 0x100000) :
    pair? (.surrogate (Fin.ofNat 0x800 (n / 0x400)))
      (.surrogate (Fin.ofNat 0x800 (0x400 + n % 0x400))) = some c := by
  have hhigh : (Fin.ofNat 0x800 (n / 0x400)).val = n / 0x400 :=
    Nat.mod_eq_of_lt (by omega)
  have hlow : (Fin.ofNat 0x800 (0x400 + n % 0x400)).val = 0x400 + n % 0x400 :=
    Nat.mod_eq_of_lt (by omega)
  have hnumber : 0x10000 + n / 0x400 * 0x400 + (0x400 + n % 0x400 - 0x400) = c.toNat := by
    omega
  rw [pair?, hhigh, hlow, if_pos (by omega), hnumber, Char.ofNat_toNat]

theorem exists_halves_cons (p : CodePoint) : ∃ q rest, halves p = q :: rest := by
  unfold halves
  split
  . split
    . exact ⟨_, _, rfl⟩
    . exact ⟨_, _, rfl⟩
  . exact ⟨_, _, rfl⟩

theorem pair?_head_halves (h : pair? p q = none) : ∀ r ∈ (halves q).head?, pair? p r = none := by
  intro r hr
  cases p with
  | char c => rfl
  | surrogate m =>
    cases q with
    | surrogate n =>
      cases hr
      exact h
    | char c =>
      by_cases hc : c.toNat < 0x10000
      . rw [halves_of_lt hc] at hr
        cases hr
        rfl
      . -- What is read first is a surrogate of the first kind.
        have hvalid : c.toNat < 0xD800 ∨ (0xDFFF < c.toNat ∧ c.toNat < 0x110000) := c.valid
        have hn : c.toNat = 0x10000 + (c.toNat - 0x10000) := by omega
        rw [halves_of_pair hn] at hr
        cases hr
        rw [pair?, if_neg]
        rw [Fin.val_ofNat]
        omega

theorem joinPairs_cons (h : ∀ q ∈ points.head?, pair? p q = none) :
    joinPairs (p :: points) = p :: joinPairs points := by
  cases points with
  | nil => rfl
  | cons q points => rw [joinPairs, h q rfl]

theorem joinPairs_halves (h : points.IsChain fun p q => p.pair? q = none) :
    joinPairs (points.flatMap halves) = points := by
  induction points with
  | nil => rfl
  | cons p points ih =>
    have hrest := ih h.tail
    have hsingle (hp : halves p = [p]) :
        joinPairs ((p :: points).flatMap halves) = p :: points := by
      rw [List.flatMap_cons, hp, List.singleton_append, joinPairs_cons, hrest]
      cases points with
      | nil => nofun
      | cons q points =>
        rw [List.isChain_cons_cons] at h
        rcases exists_halves_cons q with ⟨r, more, hq⟩
        have hhead := pair?_head_halves h.1
        rw [hq] at hhead
        rw [List.flatMap_cons, hq]
        exact hhead
    cases p with
    | surrogate n => exact hsingle rfl
    | char c =>
      by_cases hc : c.toNat < 0x10000
      . exact hsingle (halves_of_lt hc)
      . have hvalid : c.toNat < 0xD800 ∨ (0xDFFF < c.toNat ∧ c.toNat < 0x110000) := c.valid
        have hn : c.toNat = 0x10000 + (c.toNat - 0x10000) := by omega
        rw [List.flatMap_cons, halves_of_pair hn, List.cons_append, List.singleton_append,
          joinPairs, pair?_halves hn (by omega), hrest]

theorem readText_encodeText {t : Text} (h : t.IsWhole) (rest : List Char) :
    readText (t.points.flatMap encodePoint ++ '"' :: rest) = some (t, rest) := by
  rw [readText, readPoints_flatMap]
  show some ((⟨joinPairs (t.points.flatMap halves)⟩ : Text), rest) = _
  rw [joinPairs_halves h]

end

def EndsValue (rest : List Char) : Prop :=
  ∀ c ∈ rest.head?, c = ',' ∨ c = ']' ∨ c = '\x7d'

section

variable {cs rest : List Char} {c : Char}

theorem EndsValue.head (p : Char → Bool) (h : EndsValue rest) (hcomma : p ',' = false)
    (hlist : p ']' = false) (hmap : p '\x7d' = false) : ∀ c ∈ rest.head?, p c = false := by
  intro c hc
  rcases h c hc with rfl | rfl | rfl
  . exact hcomma
  . exact hlist
  . exact hmap

theorem readFraction_of_endsValue (h : EndsValue rest) : readFraction rest = some ([], rest) := by
  have hpoint := h.head (· == '.') rfl rfl rfl
  unfold readFraction
  split
  . exact absurd (hpoint '.' rfl) (by decide)
  . rfl

theorem readExponent_of_endsValue (h : EndsValue rest) : readExponent rest = some (none, rest) := by
  have hletter := h.head (fun c => c = 'e' ∨ c = 'E') rfl rfl rfl
  cases rest with
  | nil => rfl
  | cons c rest =>
    rw [readExponent, if_neg (of_decide_eq_false (hletter c rfl))]

theorem length_toDigits_of_head {n : Nat} (h : (Nat.toDigits 10 n).head? = some '0') :
    (Nat.toDigits 10 n).length = 1 := by
  have hzero : ∀ d < 10, Nat.digitChar d = '0' → d = 0 := by decide
  rcases Text.exists_digits_cons (show 1 < 10 by decide) n with ⟨d, ds, hds, hlt, -, hfirst⟩
  rw [hds] at h
  have hd := hzero d (hlt d (.head _)) (Option.some.inj h)
  have hn : n = 0 := by omega
  rw [hn]
  rfl

theorem readMagnitude_toDigits (negative : Bool) (n : Nat) (h : EndsValue rest) :
    readMagnitude negative (Nat.toDigits 10 n ++ rest) =
      some (.integer (if negative then -n else n), rest) := by
  have hdigit : ∀ c ∈ Nat.toDigits 10 n, c.isDigit = true := by
    intro c hc
    exact Nat.isDigit_of_mem_toDigits (by decide) (by decide) hc
  have hspan := span_append_of_head hdigit (h.head Char.isDigit rfl rfl rfl)
  have hcondition : ((Nat.toDigits 10 n).isEmpty
      || ((Nat.toDigits 10 n).head? == some '0' && 1 < (Nat.toDigits 10 n).length)) = false := by
    rw [Bool.or_eq_false_iff, List.isEmpty_eq_false_iff, Bool.and_eq_false_imp, beq_iff_eq]
    refine ⟨Nat.toDigits_ne_nil, ?_⟩
    intro hhead
    rw [length_toDigits_of_head hhead]
    rfl
  unfold readMagnitude
  rw [hspan]
  dsimp only
  rw [hcondition, readFraction_of_endsValue h]
  simp only [Bool.false_eq_true, if_false, Option.bind_eq_bind, Option.bind_some,
    readExponent_of_endsValue h, List.append_nil, Text.decimalValue_toDigits]
  rfl

theorem readScalar_of_isDigit (hc : c.isDigit = true) :
    readScalar (c :: cs) = readMagnitude false (c :: cs) := by
  unfold readScalar
  split
  . next h => cases h; cases hc
  . next h => cases h; cases hc
  . next h => cases h; cases hc
  . next h => cases h; cases hc
  . rfl

theorem readScalar_integer (n : Int) (h : EndsValue rest) :
    readScalar ((Text.integer n).toList ++ rest) = some (.integer n, rest) := by
  cases n with
  | ofNat n =>
    rw [Text.integer, Text.decimal, String.toList_ofList]
    have hread := readMagnitude_toDigits false n h
    have hdigit : ∀ c ∈ Nat.toDigits 10 n, c.isDigit = true := by
      intro c hc
      exact Nat.isDigit_of_mem_toDigits (by decide) (by decide) hc
    have hne := Nat.toDigits_ne_nil (n := n) (b := 10)
    generalize Nat.toDigits 10 n = digits at hread hdigit hne ⊢
    cases digits with
    | nil => exact absurd rfl hne
    | cons c digits =>
      rw [List.cons_append, readScalar_of_isDigit (hdigit c (.head _))]
      exact hread
  | negSucc n =>
    have hsign : "-".toList = ['-'] := rfl
    rw [Text.integer, Text.decimal, String.toList_append, hsign, String.toList_ofList,
      List.append_assoc, List.singleton_append, readScalar, readMagnitude_toDigits true (n + 1) h]
    rfl

end

end Json
end NodeSettings
