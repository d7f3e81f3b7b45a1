import NodeSettings.Proofs.Except
import NodeSettings.Proofs.Text
import NodeSettings.Setting
import NodeSettings.Value.Literal

/-!
This module contains which values have a plain form, and that the name of a setting or of a section
is the plain form of nothing but a text.
-/

namespace NodeSettings

def isNameLetter (c : Char) : Bool :=
  c.isLower || c == '_'

def IsName (s : String) : Prop :=
  4 ≤ s.length ∧ ∀ c ∈ s.toList, isNameLetter c = true

instance (s : String) : Decidable (IsName s) :=
  decidable_of_iff (4 ≤ s.length ∧ s.toList.all isNameLetter = true)
    (by rw [IsName, List.all_eq_true])

theorem Setting.isName_name (s : Setting) : IsName s.name := by
  cases s <;> decide +kernel

theorem Section.isName_name (x : Section) : IsName x.name := by
  cases x <;> decide +kernel

theorem isName_of_mem_names {s : String} (h : (s : Text) ∈ names) : IsName s := by
  simp only [names, List.mem_map, List.mem_append, Text.ofString_inj] at h
  rcases h with ⟨_, ⟨x, -, rfl⟩ | ⟨s, -, rfl⟩, rfl⟩
  . exact x.isName_name
  . exact s.isName_name

theorem Setting.name_mem_names (s : Setting) : (s.name : Text) ∈ names :=
  List.mem_map_of_mem (List.mem_append_right _ (List.mem_map_of_mem s.mem_all))

theorem Section.name_mem_names (x : Section) : (x.name : Text) ∈ names :=
  List.mem_map_of_mem (List.mem_append_left _ (List.mem_map_of_mem x.mem_all))

theorem not_isName_of_mem {s : String} {c : Char} (hc : c ∈ s.toList)
    (h : isNameLetter c = false) : ¬ IsName s := by
  intro hs
  have := hs.2 c hc
  simp [h] at this

theorem isNameLetter_of_isDigit {c : Char} (h : c.isDigit = true) : isNameLetter c = false := by
  have hlower : c.isLower = (decide (c.val ≥ 97) && decide (c.val ≤ 122)) := rfl
  unfold isNameLetter
  rw [hlower]
  simp only [Char.isDigit, Bool.and_eq_true, decide_eq_true_eq, Bool.or_eq_false_iff,
    Bool.and_eq_false_iff, decide_eq_false_iff_not, beq_eq_false_iff_ne] at h ⊢
  constructor
  . left
    have := h.2
    simp only [UInt32.le_iff_toNat_le] at this ⊢
    simp at this ⊢
    omega
  . rintro rfl
    revert h
    decide

theorem not_isName_decimal (n : Nat) : ¬ IsName (Text.decimal n) := by
  have hne : Nat.toDigits 10 n ≠ [] := Nat.toDigits_ne_nil
  rcases List.exists_mem_of_ne_nil _ hne with ⟨c, hc⟩
  apply not_isName_of_mem (c := c)
  . simpa [Text.decimal] using hc
  . apply isNameLetter_of_isDigit
    exact Nat.isDigit_of_mem_toDigits (by omega) (by omega) hc

theorem not_isName_integer (n : Int) : ¬ IsName (Text.integer n) := by
  cases n with
  | ofNat n => apply not_isName_decimal
  | negSucc n =>
    apply not_isName_of_mem (c := '-')
    . simp [Text.integer]
    . rfl

theorem exists_mem_signed {p : Char → Prop} (negative : Bool) {body : List Char}
    (h : ∃ c ∈ body, p c) : ∃ c ∈ if negative then '-' :: body else body, p c := by
  rcases h with ⟨c, hc, hp⟩
  refine ⟨c, ?_, hp⟩
  cases negative with
  | false => simpa using hc
  | true => simp [hc]

theorem Binary64.not_isName_text (x : Binary64) : ¬ IsName x.text := by
  cases x with
  | nan => decide
  | infinity negative => cases negative <;> decide
  | finite negative s e =>
    -- Every form of a finite number has a digit, a point or the sign of an exponent in it.
    suffices h : ∃ c ∈ (Binary64.finite negative s e).text.toList, isNameLetter c = false by
      rcases h with ⟨c, hc, hletter⟩
      exact not_isName_of_mem hc hletter
    simp only [text, String.toList_ofList]
    apply exists_mem_signed
    split
    . exact ⟨'0', by simp, rfl⟩
    . split
      . exact ⟨'0', by simp, rfl⟩
      . split
        . exact ⟨'.', by simp, rfl⟩
        . refine ⟨_, List.mem_append_left _ (List.mem_append_right _
            (List.mem_cons_of_mem _ List.mem_cons_self)), ?_⟩
          split <;> rfl

theorem Duration.not_isName_clockText (d : Duration) : ¬ IsName d.clockText := by
  apply not_isName_of_mem (c := ':')
  . simp [Duration.clockText]
  . rfl

theorem CivilDate.not_isName_text (d : CivilDate) : ¬ IsName d.text := by
  apply not_isName_of_mem (c := '-')
  . simp [CivilDate.text]
  . rfl

theorem Moment.not_isName_text (between : String) (m : Moment) : ¬ IsName (m.text between) := by
  apply not_isName_of_mem (c := '-')
  . simp [Moment.text, CivilDate.text]
  . rfl

theorem not_isName_bytesLiteral (octets : List Nat) : ¬ IsName (bytesLiteral octets) := by
  have hquote : Text.quoteFor (octets.map Char.ofNat) = '"'
      ∨ Text.quoteFor (octets.map Char.ofNat) = '\'' := by
    unfold Text.quoteFor
    split
    . left
      rfl
    . right
      rfl
  apply not_isName_of_mem (c := Text.quoteFor (octets.map Char.ofNat))
  . simp [bytesLiteral]
  . rcases hquote with h | h <;> rw [h] <;> rfl

theorem Duration.not_isName_literal (d : Duration) : ¬ IsName d.literal := by
  apply not_isName_of_mem (c := '.')
  . unfold Duration.literal
    simp only [String.toList_append]
    apply List.mem_append_left
    apply List.mem_append_left
    simp
  . rfl

theorem integerText_eq_ok_iff {n : Int} {s : String} :
    integerText n = .ok s ↔ n.natAbs < Nat.pow 10 maxDigits ∧ Text.integer n = s := by
  unfold integerText
  split
  . next h =>
    have : ¬ n.natAbs < Nat.pow 10 maxDigits := Nat.not_lt.mpr h
    simp only [Except.throw_eq_error, reduceCtorEq, this, false_and]
  . next h =>
    have : n.natAbs < Nat.pow 10 maxDigits := Nat.not_le.mp h
    simp only [Except.pure_eq_ok, Except.ok.injEq, this, true_and]

namespace Value

theorem dateLiteral_not_isName (d : CivilDate) : ¬ IsName (dateLiteral d) := by
  apply not_isName_of_mem (c := '.')
  . rw [dateLiteral, String.toList_append, String.toList_append]
    apply List.mem_append_left
    apply List.mem_append_left
    simp
  . rfl

theorem momentLiteral_not_isName (m : Moment) : ¬ IsName (momentLiteral m) := by
  apply not_isName_of_mem (c := '.')
  . unfold momentLiteral
    simp only [String.toList_append]
    apply List.mem_append_left
    apply List.mem_append_left
    apply List.mem_append_left
    simp
  . rfl

theorem not_isName_of_literal {v : Value} {s : String} (h : v.literal = .ok s)
    (hv : ∀ t, v ≠ .text t) (hforeign : ∀ o, v ≠ .foreign o) : ¬ IsName s := by
  cases v with
  | text t => exact absurd rfl (hv t)
  | foreign o => exact absurd rfl (hforeign o)
  | integer n =>
    rw [literal, integerText_eq_ok_iff] at h
    rw [← h.2]
    apply not_isName_integer
  | list xs =>
    rw [literal, Except.bind_eq_ok_iff] at h
    rcases h with ⟨items, -, h⟩
    rw [← Except.ok.inj h]
    apply not_isName_of_mem (c := '[')
    . simp
    . rfl
  | tuple xs =>
    rw [literal, Except.bind_eq_ok_iff] at h
    rcases h with ⟨items, -, h⟩
    rw [← Except.ok.inj h]
    apply not_isName_of_mem (c := '(')
    . simp
    . rfl
  | map xs =>
    rw [literal, Except.bind_eq_ok_iff] at h
    rcases h with ⟨items, -, h⟩
    rw [← Except.ok.inj h]
    apply not_isName_of_mem (c := '\x7b')
    . simp
    . rfl
  | set xs =>
    rw [literal, Except.bind_eq_ok_iff] at h
    rcases h with ⟨items, -, h⟩
    rw [← Except.ok.inj h]
    split
    . decide
    . apply not_isName_of_mem (c := '\x7b')
      . simp
      . rfl
  | null =>
    rw [literal] at h
    rw [← Except.ok.inj h]
    decide
  | boolean b =>
    rw [literal] at h
    rw [← Except.ok.inj h]
    cases b <;> decide
  | float x =>
    rw [literal] at h
    rw [← Except.ok.inj h]
    apply Binary64.not_isName_text
  | undefined mark =>
    rw [literal] at h
    rw [← Except.ok.inj h]
    apply Binary64.not_isName_text
  | duration d =>
    rw [literal] at h
    rw [← Except.ok.inj h]
    apply Duration.not_isName_literal
  | bytes octets =>
    rw [literal] at h
    rw [← Except.ok.inj h]
    apply not_isName_bytesLiteral
  | date d =>
    rw [literal] at h
    rw [← Except.ok.inj h]
    apply dateLiteral_not_isName
  | moment m =>
    rw [literal] at h
    rw [← Except.ok.inj h]
    apply momentLiteral_not_isName

theorem not_mem_names_of_plain {v : Value} {t : Text} (h : v.plain = .ok t)
    (hv : ∀ t, v ≠ .text t) : t ∉ names := by
  have hname {s : String} (hs : ¬ IsName s) : (s : Text) ∉ names :=
    fun hmem => hs (isName_of_mem_names hmem)
  unfold plain at h
  split at h
  . next t => exact absurd rfl (hv t)
  . next d =>
    rw [← Except.ok.inj h]
    exact hname (Duration.not_isName_clockText d)
  . next d =>
    rw [← Except.ok.inj h]
    exact hname (CivilDate.not_isName_text d)
  . next m =>
    rw [← Except.ok.inj h]
    exact hname (Moment.not_isName_text " " m)
  . next o =>
    rw [← Except.ok.inj h]
    exact o.anonymous
  . next hforeign =>
    rw [Except.bind_eq_ok_iff] at h
    rcases h with ⟨s, hs, h⟩
    rw [← Except.ok.inj h]
    exact hname (not_isName_of_literal hs hv hforeign)

theorem plain_eq_name_iff {v : Value} {t : Text} (ht : t ∈ names) :
    v.plain = .ok t ↔ v = .text t := by
  constructor
  . intro h
    by_cases hv : ∀ t, v ≠ .text t
    . exact absurd ht (not_mem_names_of_plain h hv)
    . simp only [ne_eq, Classical.not_forall, Classical.not_not] at hv
      rcases hv with ⟨t, rfl⟩
      rw [plain] at h
      rw [Except.ok.inj h]
  . rintro rfl
    rfl

end Value
end NodeSettings
