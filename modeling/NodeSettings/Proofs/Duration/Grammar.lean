import NodeSettings.Failure
import NodeSettings.Proofs.Binary64
import NodeSettings.Proofs.Duration.Stripped

/-!
This module contains the texts that durations are read from: a zero, or parts one behind the other.
Any other text is refused, and the total of parts is refused only if it is too long or too short.
-/

namespace NodeSettings

namespace Duration

theorem isPlus_size (u : AmountUnit) :
    u.size.IsPlus ∧ u.size.isZero = false ∧ u.size ≠ .infinity false := by
  have hplus : u.size.IsPlus := by
    cases u with
    | nanosecond => exact Binary64.isPlus_ofDecimal 1 (-3)
    | microsecond => exact Binary64.isPlus_ofRatio 1 1
    | millisecond => exact Binary64.isPlus_ofRatio 1000 1
    | second => exact Binary64.isPlus_ofRatio 1000000 1
    | minute => exact Binary64.isPlus_ofRatio 60000000 1
    | hour => exact Binary64.isPlus_ofRatio 3600000000 1
  refine ⟨hplus, ?_, ?_⟩
  . cases u <;> decide +kernel
  . cases u <;> decide +kernel

theorem isPlus_length (a : Amount) : a.length.IsPlus := by
  have hsize := isPlus_size a.unit
  apply Binary64.IsPlus.mul
  . apply Binary64.isPlus_ofDecimal
  . exact hsize.1
  . exact hsize.2.1
  . exact hsize.2.2

theorem isPlus_total (amounts : List Amount) : (total amounts).IsPlus := by
  have hfoldl (x : Binary64) (hx : x.IsPlus) :
      (amounts.foldl (fun sum a => sum.add a.length) x).IsPlus := by
    induction amounts generalizing x with
    | nil => exact hx
    | cons a amounts ih =>
      rw [List.foldl_cons]
      apply ih
      apply hx.add
      apply isPlus_length
  apply hfoldl
  exact .finite _ _

def partsText (parts : List Part) : Text :=
  .ofChars (parts.flatMap Part.chars)

def Sign.signed (s : Sign) (x : Binary64) : Binary64 :=
  if s.isMinus then x.neg else x

section

variable {raw t : Text} {ps qs : List Part} {p : Part} {x : Binary64} {fault : ReadFault}

theorem replacement_not_mem (ps : List Part) : '\ufffd' ∉ ps.flatMap Part.chars := by
  intro hmem
  rw [List.mem_flatMap] at hmem
  rcases hmem with ⟨p, -, hp⟩
  rw [Part.chars, List.mem_append] at hp
  rcases hp with hp | hp
  . have hnumber := isNumberChar_of_mem_number hp
    revert hnumber
    decide
  . have hsymbol : ∀ u : AmountUnit, (u.symbols.all (!·.contains '\ufffd')) = true := by
      intro u
      cases u <;> decide
    have hnone := List.all_eq_true.mp (hsymbol p.unit) p.symbol p.symbol_mem
    simp [hp] at hnone

theorem chars_eq_flatMap_iff : t.chars = ps.flatMap Part.chars ↔ t = partsText ps :=
  Text.chars_eq_iff (replacement_not_mem ps)

theorem partsText_inj : partsText ps = partsText qs ↔ ps = qs := by
  rw [← chars_eq_flatMap_iff, partsText, Text.chars_ofChars, flatMap_chars_inj]

theorem chars_eq_zero_iff : t.chars = ['0'] ↔ t = ("0" : Text) :=
  Text.chars_eq_iff (by decide)

theorem ofText_of_stripped (r : Stripped raw) :
    ofText raw =
      if r.bare.chars = ['0'] then .ok zero
      else if r.bare.chars.isEmpty then .error (.invalid (Text.quoted raw))
      else
        match readAmounts? r.bare.chars with
        | none => .error (.invalid (Text.quoted raw))
        | some amounts => ofLength (.text raw) (r.sign.signed (total amounts)) := by
  unfold ofText
  dsimp only
  rw [r.readSign_eq]
  rfl

theorem ofText_zero (r : Stripped raw) (h : r.bare = ("0" : Text)) : ofText raw = .ok zero := by
  rw [ofText_of_stripped r, if_pos (chars_eq_zero_iff.mpr h)]

theorem ofText_parts (r : Stripped raw) (hne : ps ≠ []) (h : r.bare = partsText ps) :
    ofText raw = ofLength (.text raw) (r.sign.signed (total (ps.map Part.amount))) := by
  have hchars : r.bare.chars = ps.flatMap Part.chars := chars_eq_flatMap_iff.mpr h
  have hread : readAmounts? r.bare.chars = some (ps.map Part.amount) :=
    readAmounts?_eq_some_iff.mpr ⟨ps, hchars, rfl⟩
  have hzero : r.bare.chars ≠ ['0'] := by
    intro hzero
    rw [hzero] at hread
    cases hread
  have hempty : r.bare.chars ≠ [] := by
    rw [hchars]
    intro hnil
    exact hne (flatMap_chars_inj.mp hnil)
  rw [ofText_of_stripped r, if_neg hzero, if_neg (by simpa using hempty), hread]

theorem ofText_other (r : Stripped raw) (hzero : r.bare ≠ ("0" : Text))
    (h : ∀ ps : List Part, ps ≠ [] → r.bare ≠ partsText ps) :
    ofText raw = .error (.invalid (Text.quoted raw)) := by
  have hzero' : r.bare.chars ≠ ['0'] := fun heq => hzero (chars_eq_zero_iff.mp heq)
  rw [ofText_of_stripped r, if_neg hzero']
  by_cases hempty : r.bare.chars = []
  . rw [hempty, List.isEmpty_nil, if_pos rfl]
  . rw [if_neg (by simpa using hempty)]
    cases hread : readAmounts? r.bare.chars with
    | none => rfl
    | some amounts =>
      rw [readAmounts?_eq_some_iff] at hread
      rcases hread with ⟨ps, hps, -⟩
      have hne : ps ≠ [] := by
        rintro rfl
        exact hempty hps
      exact absurd (chars_eq_flatMap_iff.mp hps) (h ps hne)

theorem exists_stripped_parts {front back : List Char}
    (hfront : ∀ c ∈ front, Text.isBlank c = true) (hback : ∀ c ∈ back, Text.isBlank c = true)
    (s : Sign) (ps : List Part) :
    ∃ r : Stripped (.ofChars (front ++ (s.chars ++ ps.flatMap Part.chars ++ back))),
      r.sign = s ∧ r.bare = partsText ps := by
  have hpoints : (Text.ofChars s.chars ++ partsText ps).points =
      (s.chars ++ ps.flatMap Part.chars).map .char := by
    rw [Text.points_append, partsText, List.map_append]
    rfl
  have hblank : ∀ q ∈ (Text.ofChars s.chars ++ partsText ps).points, q.isBlank = false := by
    rw [hpoints]
    intro q hq
    rw [List.mem_map] at hq
    rcases hq with ⟨c, hc, rfl⟩
    show Text.isBlank c = false
    rw [List.mem_append, List.mem_flatMap] at hc
    rcases hc with hc | ⟨p, -, hc⟩
    . have hsigns : (s.chars.all (!Text.isBlank ·)) = true := by
        cases s <;> decide
      simpa using List.all_eq_true.mp hsigns c hc
    . exact isBlank_of_mem_chars hc
  refine ⟨⟨front.map .char, s, partsText ps, back.map .char, ?_, ?_, ?_, ?_, ?_, ?_⟩, rfl, rfl⟩
  . rw [hpoints, Text.ofChars, List.map_append, List.map_append]
  . intro q hq
    rw [List.mem_map] at hq
    rcases hq with ⟨c, hc, rfl⟩
    exact hfront c hc
  . intro q hq
    rw [List.mem_map] at hq
    rcases hq with ⟨c, hc, rfl⟩
    exact hback c hc
  . intro q hq
    exact hblank q (List.mem_of_mem_head? hq)
  . intro q hq
    exact hblank q (List.mem_of_mem_getLast? hq)
  . intro _ q hq
    rw [partsText, Text.ofChars, List.head?_map, Option.mem_def, Option.map_eq_some_iff] at hq
    rcases hq with ⟨c, hc, rfl⟩
    have hnumber := head_flatMap_chars ps c hc
    constructor
    . rintro ⟨⟩
      revert hnumber
      decide
    . rintro ⟨⟩
      revert hnumber
      decide

theorem readDecimal?_number (p : Part) :
    ∃ x, Binary64.readDecimal? false p.number = some x ∧ p.amount.length = x.mul p.unit.size := by
  refine ⟨.ofDecimal false (Text.decimalValue (p.whole ++ p.fraction.getD []))
    (-(p.fraction.getD []).length), ?_, rfl⟩
  have hdigit := p.hasDigit
  have hfraction := p.isDecimal_fraction
  unfold Binary64.readDecimal? Binary64.spanDigits
  rw [span_number]
  cases hp : p.fraction with
  | none =>
    rw [hp] at hdigit
    have hwhole : p.whole.isEmpty = false := by simpa using hdigit
    dsimp only [pointed, Option.getD_none]
    rw [hwhole, Bool.false_and, if_neg Bool.false_ne_true]
    rfl
  | some f =>
    rw [hp, Option.getD_some] at hdigit hfraction
    have hspan : (f ++ []).span Text.isDecimal = (f, []) :=
      span_append_of_head hfraction (by simp)
    rw [List.append_nil] at hspan
    have hempty : (p.whole.isEmpty && f.isEmpty) = false := by
      simpa [← not_and_or] using hdigit
    simp only [pointed, Option.getD_some, hspan, hempty]
    rw [if_neg Bool.false_ne_true, Binary64.readExponent?, Option.map_some, Int.zero_sub]

theorem fault_of_ofLength (hx : x ≠ .nan) (h : ofLength (.text raw) x = .error fault) :
    fault = .belowPrecision (Text.quoted raw) ∨ fault = .outOfRange (Text.quoted raw) := by
  unfold ofLength at h
  dsimp only at h
  split at h
  . cases h
    exact .inl rfl
  . split at h
    . exact absurd rfl hx
    . split at h
      . cases h
      . cases h
        exact .inr rfl

theorem hasValue_signed {q : ℚ} (h : x.HasValue false q) (s : Sign) :
    (s.signed x).HasValue s.isMinus q := by
  unfold Sign.signed
  cases hs : s.isMinus with
  | true => exact h.neg
  | false => exact h

theorem signed_ne_nan (hx : x.IsPlus) (s : Sign) : s.signed x ≠ .nan := by
  unfold Sign.signed
  split
  . exact hx.ne_nan.2
  . exact hx.ne_nan.1

end

/--
A duration is read from a text if the bare text is a zero or written of parts, in one way only. It
is the total of just these parts, unless that is too short or too long; any other text is refused.
-/
theorem ofValue_text_follows_grammar (raw : Text) :
    Nonempty (Stripped raw)
      ∧ ∀ r : Stripped raw,
        (r.bare ≠ ("0" : Text) → (∀ ps : List Part, ps ≠ [] → r.bare ≠ partsText ps) →
          ofValue (.text raw) = .error (.invalid (Text.quoted raw))
            ∧ (Failure.duration (.invalid (Text.quoted raw))).kind = "ValueError"
            ∧ (Failure.duration (.invalid (Text.quoted raw))).message =
              ("invalid duration " ++ Text.quoted raw : String))
        ∧ (r.bare = ("0" : Text) → ofValue (.text raw) = .ok zero)
        ∧ ∀ ps : List Part, ps ≠ [] → r.bare = partsText ps →
          (∀ qs, r.bare = partsText qs → qs = ps)
            ∧ (∀ p ∈ ps, ∃ x, Binary64.readDecimal? false p.number = some x
              ∧ p.amount.length = x.mul p.unit.size)
            ∧ ofValue (.text raw) =
              ofLength (.text raw) (r.sign.signed (total (ps.map Part.amount)))
            ∧ ∀ fault, ofValue (.text raw) = .error fault →
              (fault = .belowPrecision (Text.quoted raw) ∨ fault = .outOfRange (Text.quoted raw))
                ∧ (Failure.duration fault).kind = "ValueError" := by
  refine ⟨exists_stripped raw, ?_⟩
  intro r
  refine ⟨?_, ofText_zero r, ?_⟩
  . intro hzero hparts
    exact ⟨ofText_other r hzero hparts, rfl, rfl⟩
  . intro ps hne hbare
    have hread := ofText_parts r hne hbare
    refine ⟨?_, fun p _ => readDecimal?_number p, hread, ?_⟩
    . intro qs hqs
      rw [hbare, partsText_inj] at hqs
      exact hqs.symm
    . intro fault hfault
      refine ⟨?_, rfl⟩
      apply fault_of_ofLength _ (hread.symm.trans hfault)
      apply signed_ne_nan
      apply isPlus_total

def minutePart : Part :=
  ⟨['1'], none, .minute, ['m'], List.all_eq_true.mp rfl, isDecimal_of_mem_none, by decide,
    by decide⟩

def millisecondsPart : Part :=
  ⟨['5'], some ['5'], .millisecond, ['m', 's'], List.all_eq_true.mp rfl, List.all_eq_true.mp rfl,
    by decide, by decide⟩

def strippedMinute : Stripped ("\t-1m5.5ms " : String) where
  front := [.char '\t']
  sign := .minus
  bare := ("1m5.5ms" : String)
  back := [.char ' ']
  eq_append := rfl
  front_isBlank := List.all_eq_true.mp rfl
  back_isBlank := List.all_eq_true.mp rfl
  head_not_isBlank := by decide
  last_not_isBlank := by decide
  head_of_none := nofun

def strippedGap : Stripped ("1m 5.5ms" : String) where
  front := []
  sign := .none
  bare := ("1m 5.5ms" : String)
  back := []
  eq_append := rfl
  front_isBlank := nofun
  back_isBlank := nofun
  head_not_isBlank := by decide
  last_not_isBlank := by decide
  head_of_none := by decide

theorem ofValue_text_follows_grammar_minute :
    (∀ ps, strippedMinute.bare = partsText ps → ps = [minutePart, millisecondsPart])
      ∧ ofValue (.text ("\t-1m5.5ms " : String)) = .ok ⟨-60005500, by decide⟩
      ∧ ofValue (.text ("1m 5.5ms" : String)) = .error (.invalid "'1m 5.5ms'") := by
  rcases (ofValue_text_follows_grammar ("\t-1m5.5ms " : String)).2 strippedMinute with
    ⟨-, -, hparts⟩
  rcases hparts [minutePart, millisecondsPart] (by simp) rfl with ⟨hunique, -, hread, -⟩
  rcases (ofValue_text_follows_grammar ("1m 5.5ms" : String)).2 strippedGap with ⟨hother, -, -⟩
  have hnone : ∀ ps : List Part, ps ≠ [] → strippedGap.bare ≠ partsText ps := by
    intro ps _ hps
    have hamounts : readAmounts? strippedGap.bare.chars = some (ps.map Part.amount) :=
      readAmounts?_eq_some_iff.mpr ⟨ps, chars_eq_flatMap_iff.mpr hps, rfl⟩
    cases hamounts
  refine ⟨hunique, ?_, (hother (by decide) hnone).1⟩
  rw [hread]
  decide +kernel

end Duration
end NodeSettings
