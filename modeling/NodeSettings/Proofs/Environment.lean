import Mathlib.Data.List.Induction
import NodeSettings.Config.Environment
import NodeSettings.Proofs.Digits

/-!
This module contains what becomes of the variables of an environment that are to be numbers: a
numeral of 64 bits is taken, and any other text is reported, unless it is a numeral that is too long
to be read.
-/

namespace NodeSettings
namespace Environment

/-- Digits, one or more of them, write a number in base ten. -/
inductive Writes : List Char → Nat → Prop where
  | digit {d : Nat} (h : d < 10) : Writes [Nat.digitChar d] d
  | next {cs : List Char} {n d : Nat} (before : Writes cs n) (h : d < 10) :
    Writes (cs ++ [Nat.digitChar d]) (10 * n + d)

/-- A text consists of digits that write an integer, behind one sign if need be. -/
inductive IsNumeral : List Char → List Char → Int → Prop where
  | bare {digits : List Char} {m : Nat} (h : Writes digits m) : IsNumeral digits digits m
  | plus {digits : List Char} {m : Nat} (h : Writes digits m) : IsNumeral ('+' :: digits) digits m
  | minus {digits : List Char} {m : Nat} (h : Writes digits m) :
    IsNumeral ('-' :: digits) digits (-m)

/-- A text is a numeral of an integer of 64 bits. -/
def Denotes (v : String) (n : Int) : Prop :=
  (∃ digits, IsNumeral v.toList digits n)
    ∧ -9223372036854775808 ≤ n ∧ n ≤ 9223372036854775807

def IsTooLong (v : String) : Prop :=
  ∃ digits n, IsNumeral v.toList digits n ∧ maxDigits < digits.length

section

variable {cs digits : List Char} {c : Char} {d m : Nat} {n : Int}

theorem exists_digitChar (h : c.isDigit = true) : ∃ d < 10, c = Nat.digitChar d := by
  have hall : ∀ d < 10, Char.ofNat (48 + d) = Nat.digitChar d := by decide
  have hrange : 48 ≤ c.toNat ∧ c.toNat ≤ 57 := Char.isDigit_iff_toNat.mp h
  refine ⟨c.toNat - 48, by omega, ?_⟩
  rw [← hall _ (by omega), Nat.add_sub_cancel' hrange.1, Char.ofNat_toNat]

theorem decimalValue_concat (cs : List Char) (h : d < 10) :
    Text.decimalValue (cs ++ [Nat.digitChar d]) = 10 * Text.decimalValue cs + d := by
  have hall : ∀ d < 10, (Text.digitValue? (Nat.digitChar d)).getD 0 = d := by decide
  unfold Text.decimalValue
  rw [List.map_append, Text.ofDigits_append, List.map_singleton, hall d h]
  rfl

theorem decimalValue_digitChar (h : d < 10) : Text.decimalValue [Nat.digitChar d] = d := by
  have hvalue := decimalValue_concat [] h
  simpa [Text.decimalValue, Text.ofDigits] using hvalue

theorem writes_iff :
    Writes cs m ↔ cs ≠ [] ∧ (∀ c ∈ cs, c.isDigit = true) ∧ Text.decimalValue cs = m := by
  constructor
  . intro h
    induction h with
    | digit h =>
      refine ⟨by simp, ?_, ?_⟩
      . intro c hc
        rw [List.mem_singleton.mp hc, Nat.isDigit_digitChar, decide_eq_true_eq]
        exact h
      . exact decimalValue_digitChar h
    | next before h ih =>
      refine ⟨by simp, ?_, ?_⟩
      . intro c hc
        rw [List.mem_append, List.mem_singleton] at hc
        rcases hc with hc | rfl
        . exact ih.2.1 c hc
        . rw [Nat.isDigit_digitChar, decide_eq_true_eq]
          exact h
      . rw [decimalValue_concat _ h, ih.2.2]
  -- Numerals grow at their end, and so does the induction.
  . rintro ⟨hne, hdigits, rfl⟩
    induction cs using List.reverseRecOn with
    | nil => exact absurd rfl hne
    | append_singleton cs c ih =>
      rcases exists_digitChar (hdigits c (by simp)) with ⟨d, hd, rfl⟩
      by_cases hcs : cs = []
      . subst hcs
        rw [List.nil_append, decimalValue_digitChar hd]
        exact .digit hd
      . rw [decimalValue_concat _ hd]
        apply Writes.next _ hd
        apply ih hcs
        intro c hc
        exact hdigits c (List.mem_append_left _ hc)

theorem splitSign_of_writes (h : Writes digits m) : splitSign digits = (false, digits) := by
  rw [writes_iff] at h
  unfold splitSign
  split
  . cases h.2.1 '-' (.head _)
  . cases h.2.1 '+' (.head _)
  . rfl

theorem isNumeral_iff :
    IsNumeral cs digits n ↔
      ∃ negative m, splitSign cs = (negative, digits) ∧ Writes digits m
        ∧ n = if negative then -(m : Int) else m := by
  constructor
  . intro h
    cases h with
    | bare h => exact ⟨false, _, splitSign_of_writes h, h, rfl⟩
    | plus h => exact ⟨false, _, rfl, h, rfl⟩
    | minus h => exact ⟨true, _, rfl, h, rfl⟩
  . rintro ⟨negative, m, hsplit, hwrites, rfl⟩
    unfold splitSign at hsplit
    split at hsplit
    . cases hsplit
      exact .minus hwrites
    . cases hsplit
      exact .plus hwrites
    . cases hsplit
      exact .bare hwrites

end

section

variable {v : String} {digits : List Char} {n : Int}

theorem readNumber_of_isNumeral (h : IsNumeral v.toList digits n) :
    readNumber v =
      if maxDigits < digits.length then .tooManyDigits digits.length
      else if minNumber ≤ n ∧ n ≤ maxNumber then .number n else .notANumber := by
  rw [isNumeral_iff] at h
  rcases h with ⟨negative, m, hsplit, hwrites, rfl⟩
  rw [writes_iff] at hwrites
  rcases hwrites with ⟨hne, hdigits, rfl⟩
  have hform : (digits.isEmpty || !digits.all Char.isDigit) = false := by
    simp [hne, List.all_eq_true.mpr hdigits]
  unfold readNumber
  rw [hsplit]
  dsimp only
  rw [hform, if_neg Bool.false_ne_true]

theorem readNumber_of_not_isNumeral (h : ∀ digits n, ¬ IsNumeral v.toList digits n) :
    readNumber v = .notANumber := by
  unfold readNumber
  dsimp only
  rw [if_pos]
  rw [← Bool.not_eq_false, Bool.or_eq_false_iff, Bool.not_eq_false', List.isEmpty_eq_false_iff,
    List.all_eq_true]
  intro hform
  apply h (splitSign v.toList).2 _
  rw [isNumeral_iff]
  exact ⟨(splitSign v.toList).1, _, rfl, writes_iff.mpr ⟨hform.1, hform.2, rfl⟩, rfl⟩

theorem isNumeral_unique {other : List Char} {k : Int} (h : IsNumeral v.toList digits n)
    (hother : IsNumeral v.toList other k) : other = digits ∧ k = n := by
  rw [isNumeral_iff] at h hother
  rcases h with ⟨negative, m, hsplit, hwrites, rfl⟩
  rcases hother with ⟨negative', m', hsplit', hwrites', rfl⟩
  rw [hsplit] at hsplit'
  cases hsplit'
  rw [writes_iff] at hwrites hwrites'
  rw [← hwrites.2.2, ← hwrites'.2.2]
  exact ⟨rfl, rfl⟩

theorem readNumber_cases (v : String) :
    (IsTooLong v ∧ ∃ count, readNumber v = .tooManyDigits count)
      ∨ (¬ IsTooLong v ∧ ∃ n, Denotes v n ∧ readNumber v = .number n)
      ∨ (¬ IsTooLong v ∧ (∀ n, ¬ Denotes v n) ∧ readNumber v = .notANumber) := by
  by_cases hnumeral : ∃ digits n, IsNumeral v.toList digits n
  . rcases hnumeral with ⟨digits, n, h⟩
    have hread := readNumber_of_isNumeral h
    by_cases hlong : maxDigits < digits.length
    . rw [if_pos hlong] at hread
      exact .inl ⟨⟨digits, n, h, hlong⟩, digits.length, hread⟩
    . rw [if_neg hlong] at hread
      have hshort : ¬ IsTooLong v := by
        rintro ⟨other, k, hother, hk⟩
        rcases isNumeral_unique h hother with ⟨rfl, rfl⟩
        exact hlong hk
      right
      by_cases hrange : minNumber ≤ n ∧ n ≤ maxNumber
      . rw [if_pos hrange] at hread
        exact .inl ⟨hshort, n, ⟨⟨digits, h⟩, hrange⟩, hread⟩
      . rw [if_neg hrange] at hread
        refine .inr ⟨hshort, ?_, hread⟩
        rintro k ⟨⟨other, hother⟩, hk⟩
        rcases isNumeral_unique h hother with ⟨rfl, rfl⟩
        exact hrange hk
  . have hnone : ∀ digits n, ¬ IsNumeral v.toList digits n := fun digits n h =>
      hnumeral ⟨digits, n, h⟩
    refine .inr (.inr ⟨?_, ?_, readNumber_of_not_isNumeral hnone⟩)
    . rintro ⟨digits, n, h, -⟩
      exact hnone digits n h
    . rintro n ⟨⟨digits, h⟩, -⟩
      exact hnone digits n h

end

/--
What becomes of the value of a setting by a variable that is to be a number, and what is reported:
the value stays if there is no such variable, and also if it is no number, which is reported.
-/
inductive Settles (env : Environment) (leader ending : String) (before : Value) :
    Value → List Log.Record → Prop where
  | missing (h : env.value? leader ending = none) : Settles env leader ending before before []
  | taken {v : String} {n : Int} (there : env.value? leader ending = some v) (h : Denotes v n) :
    Settles env leader ending before (.integer n) []
  | ignored {v : String} (there : env.value? leader ending = some v) (h : ∀ n, ¬ Denotes v n) :
    Settles env leader ending before before [ignoredRecord (variableName leader ending)]

inductive Applies (env : Environment) (leader : String) :
    List (String × Setting) → Config → Config → List Log.Record → Prop where
  | done {c : Config} : Applies env leader [] c c []
  | next {ending : String} {s : Setting} {rest : List (String × Setting)} {c c' : Config}
    {v : Value} {records more : List Log.Record}
    (first : Settles env leader ending (c.get s) v records)
    (later : Applies env leader rest (c.set s v) c' more) :
    Applies env leader ((ending, s) :: rest) c c' (records ++ more)

/-- A variable is a numeral that is too long to be read. -/
def HasTooLong (env : Environment) (leader ending : String) : Prop :=
  ∃ v, env.value? leader ending = some v ∧ IsTooLong v

section

variable {env : Environment} {leader ending : String} {s : Setting} {c c' : Config}
variable {xs : List (String × Setting)}

theorem applyNumbers_of_hasTooLong (c : Config) (s : Setting) (xs : List (String × Setting))
    (h : env.HasTooLong leader ending) :
    ∃ count, env.applyNumbers leader c ((ending, s) :: xs) = (.error count, []) := by
  rcases h with ⟨v, hv, hlong⟩
  rcases readNumber_cases v with ⟨-, count, hread⟩ | ⟨hshort, -⟩ | ⟨hshort, -⟩
  . refine ⟨count, ?_⟩
    rw [applyNumbers, hv]
    dsimp only
    rw [hread]
  . exact absurd hlong hshort
  . exact absurd hlong hshort

theorem exists_settles (c : Config) (s : Setting) (xs : List (String × Setting))
    (h : ¬ env.HasTooLong leader ending) :
    ∃ v records, Settles env leader ending (c.get s) v records
      ∧ env.applyNumbers leader c ((ending, s) :: xs) =
        ((env.applyNumbers leader (c.set s v) xs).1,
          records ++ (env.applyNumbers leader (c.set s v) xs).2) := by
  cases hv : env.value? leader ending with
  | none =>
    refine ⟨c.get s, [], .missing hv, ?_⟩
    rw [applyNumbers, hv, Config.set_get_self]
    rfl
  | some v =>
    rcases readNumber_cases v with ⟨hlong, -⟩ | ⟨-, n, hn, hread⟩ | ⟨-, hnone, hread⟩
    . exact absurd ⟨v, hv, hlong⟩ h
    . refine ⟨.integer n, [], .taken hv hn, ?_⟩
      rw [applyNumbers, hv]
      dsimp only
      rw [hread]
      rfl
    . refine ⟨c.get s, _, .ignored hv hnone, ?_⟩
      rw [applyNumbers, hv, Config.set_get_self]
      dsimp only
      rw [hread]
      rfl

theorem exists_applies (h : ∀ x ∈ xs, ¬ env.HasTooLong leader x.1) (c : Config) :
    ∃ c' records, env.applyNumbers leader c xs = (.ok c', records)
      ∧ Applies env leader xs c c' records := by
  induction xs generalizing c with
  | nil => exact ⟨c, [], rfl, .done⟩
  | cons first rest ih =>
    rcases first with ⟨ending, s⟩
    rcases exists_settles c s rest (h _ (.head _)) with ⟨v, records, hfirst, heq⟩
    rcases ih (fun x hx => h x (.tail _ hx)) (c.set s v) with ⟨c', more, hrest, happlies⟩
    refine ⟨c', records ++ more, ?_, .next hfirst happlies⟩
    rw [heq, hrest]

theorem not_hasTooLong_of_applyNumbers (h : (env.applyNumbers leader c xs).1 = .ok c') :
    ∀ x ∈ xs, ¬ env.HasTooLong leader x.1 := by
  induction xs generalizing c with
  | nil => simp
  | cons first rest ih =>
    rcases first with ⟨ending, s⟩
    have hfirst : ¬ env.HasTooLong leader ending := by
      intro hlong
      rcases applyNumbers_of_hasTooLong c s rest hlong with ⟨count, heq⟩
      rw [heq] at h
      cases h
    rcases exists_settles c s rest hfirst with ⟨v, records, -, heq⟩
    rw [heq] at h
    intro x hx
    cases hx with
    | head => exact hfirst
    | tail _ hx => exact ih h x hx

theorem applies_of_applyNumbers (h : (env.applyNumbers leader c xs).1 = .ok c') :
    Applies env leader xs c c' (env.applyNumbers leader c xs).2 := by
  rcases exists_applies (not_hasTooLong_of_applyNumbers h) c with ⟨d, records, heq, happlies⟩
  rw [heq] at h ⊢
  cases h
  exact happlies

theorem get_applyTexts (h : s ∉ xs.map Prod.snd) :
    (env.applyTexts leader c xs).get s = c.get s := by
  induction xs generalizing c with
  | nil => rfl
  | cons first rest ih =>
    rcases first with ⟨ending, t⟩
    rw [List.map_cons, List.mem_cons, not_or] at h
    rw [applyTexts]
    split
    . exact ih h.2
    . rw [ih h.2, Config.get_set_of_ne _ _ h.1]

theorem get_applyPeers (h : s ≠ .bootstrapPeers) : (env.applyPeers leader c).get s = c.get s := by
  unfold applyPeers
  split
  . rfl
  . exact Config.get_set_of_ne _ _ h

theorem wellTyped_applyTexts (hc : c.WellTyped) (h : ∀ x ∈ xs, x.2.type = .text) :
    (env.applyTexts leader c xs).WellTyped := by
  induction xs generalizing c with
  | nil => exact hc
  | cons first rest ih =>
    rcases first with ⟨ending, s⟩
    have hrest : ∀ x ∈ rest, x.2.type = .text := fun x hx => h x (.tail _ hx)
    have hs : s.type = .text := h _ (.head _)
    rw [applyTexts]
    split
    . exact ih hc hrest
    . refine ih (hc.set ?_) hrest
      rw [hs]
      rfl

theorem wellTyped_applyPeers (hc : c.WellTyped) : (env.applyPeers leader c).WellTyped := by
  unfold applyPeers
  split
  . exact hc
  . apply hc.set
    show List.all _ _ = true
    simp

theorem Settles.admits {before v : Value} {records : List Log.Record}
    (h : Settles env leader ending before v records)
    (hbefore : SettingType.integer.admits before = true) :
    SettingType.integer.admits v = true := by
  cases h with
  | missing h => exact hbefore
  | taken there h => rfl
  | ignored there h => exact hbefore

theorem Applies.wellTyped {records : List Log.Record} (h : Applies env leader xs c c' records)
    (hc : c.WellTyped) (hxs : ∀ x ∈ xs, x.2.type = .integer) : c'.WellTyped := by
  induction h with
  | done => exact hc
  | @next ending s rest c c' v records more first later ih =>
    have hs : s.type = .integer := hxs _ (.head _)
    have hbefore := hc s
    apply ih _ fun x hx => hxs x (.tail _ hx)
    apply hc.set
    rw [hs] at hbefore ⊢
    exact first.admits hbefore

end

end Environment

namespace Config

variable {env : Environment} {leader : String} {c : Config}

theorem wellTyped_of_ofEnvironment (h : (ofEnvironment env leader).1 = .ok c) : c.WellTyped := by
  have htexts : (env.applyTexts leader .default Environment.textVariables).WellTyped :=
    Environment.wellTyped_applyTexts wellTyped_default (by decide)
  have hpeers : (env.applyPeers leader _).WellTyped := Environment.wellTyped_applyPeers htexts
  exact (Environment.applies_of_applyNumbers h).wellTyped hpeers (by decide)

end Config

namespace Environment

/--
An environment describes a configuration if and only if none of the variables that are to be numbers
is a numeral of too many digits. Its numbers are then those that the variables denote, or the
defaults, and the records are the reports about the variables that denote no number.
-/
theorem ofEnvironment_reads_numbers (env : Environment) (leader : String) :
    ((∃ c, (Config.ofEnvironment env leader).1 = .ok c) ↔
        ¬ env.HasTooLong leader "MAX_PEERS" ∧ ¬ env.HasTooLong leader "MAX_CONTENT_SIZE")
      ∧ ∀ c, (Config.ofEnvironment env leader).1 = .ok c →
        ∃ peers size, (Config.ofEnvironment env leader).2 = peers ++ size
          ∧ Settles env leader "MAX_PEERS" (Setting.default .maxPeers) (c.get .maxPeers) peers
          ∧ Settles env leader "MAX_CONTENT_SIZE" (Setting.default .maxContentSize)
            (c.get .maxContentSize) size := by
  have hall : (∀ x ∈ numberVariables, ¬ env.HasTooLong leader x.1) ↔
      ¬ env.HasTooLong leader "MAX_PEERS" ∧ ¬ env.HasTooLong leader "MAX_CONTENT_SIZE" := by
    simp [numberVariables]
  constructor
  . rw [← hall]
    constructor
    . rintro ⟨c, hc⟩
      exact not_hasTooLong_of_applyNumbers hc
    . intro hshort
      rcases exists_applies hshort _ with ⟨c, records, heq, -⟩
      exact ⟨c, congrArg Prod.fst heq⟩
  . intro c hc
    have happlies : Applies env leader numberVariables
        (env.applyPeers leader (env.applyTexts leader .default textVariables)) c
        (Config.ofEnvironment env leader).2 := applies_of_applyNumbers hc
    generalize (Config.ofEnvironment env leader).2 = records at happlies
    cases happlies with
    | next first later =>
      cases later with
      | next second later =>
        cases later with
        | done =>
          -- The texts and the peers have left the two settings at their defaults.
          rw [get_applyPeers (by decide), get_applyTexts (by decide)] at first
          rw [Config.get_set_of_ne _ _ (by decide), get_applyPeers (by decide),
            get_applyTexts (by decide)] at second
          rw [List.append_nil]
          refine ⟨_, _, rfl, ?_, ?_⟩
          . rw [Config.get_set_of_ne _ _ (by decide), Config.get_set_self]
            exact first
          . rw [Config.get_set_self]
            exact second

def paddedSeven : String :=
  String.ofList (List.replicate maxDigits '0' ++ ['7'])

theorem writes_zeros (k : Nat) : Writes (List.replicate (k + 1) '0') 0 := by
  induction k with
  | zero => exact .digit (d := 0) (by decide)
  | succ k ih =>
    rw [List.replicate_succ']
    exact ih.next (d := 0) (by decide)

theorem isNumeral_paddedSeven :
    IsNumeral paddedSeven.toList (List.replicate maxDigits '0' ++ ['7']) 7 := by
  rw [paddedSeven, String.toList_ofList]
  exact .bare ((writes_zeros 4299).next (d := 7) (by decide))

/-- The number of a variable is one of 64 bits, but no configuration is described. -/
theorem not_ofEnvironment_paddedSeven :
    Environment.value? [("NODE_MAX_PEERS", paddedSeven)] "NODE" "MAX_PEERS" = some paddedSeven
      ∧ Denotes paddedSeven 7
      ∧ ∀ c, (Config.ofEnvironment [("NODE_MAX_PEERS", paddedSeven)] "NODE").1 ≠ .ok c := by
  have hvalue : Environment.value? [("NODE_MAX_PEERS", paddedSeven)] "NODE" "MAX_PEERS" =
      some paddedSeven := by
    have hname : variableName "NODE" "MAX_PEERS" = "NODE_MAX_PEERS" := by decide
    have hne : paddedSeven ≠ "" := by
      intro h
      have h := congrArg String.toList h
      rw [paddedSeven, String.toList_ofList] at h
      simp at h
    rw [Environment.value?, hname, List.lookup_cons_self]
    simp [hne]
  refine ⟨hvalue, ⟨⟨_, isNumeral_paddedSeven⟩, by decide, by decide⟩, ?_⟩
  intro c hc
  apply not_hasTooLong_of_applyNumbers hc ("MAX_PEERS", .maxPeers) (.head _)
  refine ⟨paddedSeven, hvalue, _, 7, isNumeral_paddedSeven, ?_⟩
  rw [List.length_append, List.length_replicate]
  exact Nat.lt_succ_self _

end Environment
end NodeSettings
