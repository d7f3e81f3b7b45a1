import Mathlib.Data.List.Nodup
import NodeSettings.Config.Key

/-!
This module contains the laws of keys: a name leads to at most one key, every key to a setting of
its own, and a key takes the values of its kind. What is assigned to a key is read from it, and keys
of different names have nothing to do with each other.
-/

namespace NodeSettings

inductive Kind.Has : Kind → Value → Prop where
  | text (t : Text) : Has .text (.text t)
  | integer (n : Int) : Has .integer (.integer n)
  | boolean (b : Bool) : Has .boolean (.boolean b)
  | duration (d : Duration) : Has .duration (.duration d)

theorem Kind.has_iff {kind : Kind} {v : Value} : kind.Has v ↔ kind.type.admits v = true := by
  constructor
  . intro h
    cases h <;> rfl
  . intro h
    cases kind <;> cases v <;> first | constructor | cases h

namespace Key

variable {name other : String} {kind : Kind} {k l : Key} {v : Value}

/-- The name of a key leads to it. -/
def IsRegistered (k : Key) (name : String) : Prop :=
  k ∈ all ∧ k.name = name

theorem nodup_names : (all.map Key.name).Nodup := by
  decide +kernel

theorem type_setting (h : k ∈ all) : k.setting.type = k.kind.type := by
  have hall : ∀ k ∈ all, k.setting.type = k.kind.type := by decide
  exact hall k h

theorem IsRegistered.unique (hk : k.IsRegistered name) (hl : l.IsRegistered name) : k = l :=
  List.inj_on_of_nodup_map nodup_names hk.1 hl.1 (hk.2.trans hl.2.symm)

theorem IsRegistered.setting_ne (hk : k.IsRegistered name) (hl : l.IsRegistered other)
    (h : name ≠ other) : k.setting ≠ l.setting := by
  intro hsetting
  apply h
  rw [← hk.2, ← hl.2, Key.name, hsetting, Key.name]

theorem find?_eq_some_iff : find? name = some k ↔ k.IsRegistered name := by
  have hfound : ∀ k, find? name = some k → k.IsRegistered name := by
    intro k h
    exact ⟨List.mem_of_find?_eq_some h, by simpa using List.find?_some h⟩
  constructor
  . exact hfound k
  . intro h
    cases hfind : find? name with
    | none =>
      rw [find?, List.find?_eq_none] at hfind
      exact absurd h.2 (by simpa using hfind k h.1)
    | some l => rw [(hfound l hfind).unique h]

theorem find?_eq_none_iff : find? name = none ↔ ∀ k : Key, ¬ k.IsRegistered name := by
  rw [Option.eq_none_iff_forall_ne_some]
  simp only [ne_eq, find?_eq_some_iff]

theorem lookup?_eq_some_iff : lookup? name kind = some k ↔ k.IsRegistered name ∧ k.kind = kind := by
  rw [lookup?, Option.filter_eq_some_iff, find?_eq_some_iff, beq_iff_eq]

theorem lookup?_eq_none_iff :
    lookup? name kind = none ↔ ∀ k : Key, k.IsRegistered name → k.kind ≠ kind := by
  rw [Option.eq_none_iff_forall_ne_some]
  simp only [ne_eq, lookup?_eq_some_iff, not_and]

inductive Accepts (name : String) (v : Value) : Except KeyFault Key → Prop where
  | unknown (h : ∀ k : Key, ¬ k.IsRegistered name) : Accepts name v (.error (.unknown name))
  | wrongKind {k : Key} (named : k.IsRegistered name) (h : ¬ k.kind.Has v) :
    Accepts name v (.error (.wrongKind name k.kind))
  | accepted {k : Key} (named : k.IsRegistered name) (h : k.kind.Has v) : Accepts name v (.ok k)

theorem accepts (name : String) (v : Value) : Accepts name v (accepting name v) := by
  unfold accepting
  split
  . next hfind => exact .unknown (find?_eq_none_iff.mp hfind)
  . next k hfind =>
    rw [find?_eq_some_iff] at hfind
    split
    . next hadmits => exact .accepted hfind (Kind.has_iff.mpr hadmits)
    . next hadmits => exact .wrongKind hfind (mt Kind.has_iff.mp hadmits)

theorem accepting_eq_ok_iff : accepting name v = .ok k ↔ k.IsRegistered name ∧ k.kind.Has v := by
  have h := accepts name v
  generalize accepting name v = accepted at h
  constructor
  . rintro rfl
    cases h with
    | accepted named h => exact ⟨named, h⟩
  . rintro ⟨named, hk⟩
    cases h with
    | unknown h => exact absurd named (h k)
    | wrongKind found h =>
      cases found.unique named
      exact absurd hk h
    | accepted found h => rw [found.unique named]

theorem admits_of_accepting (h : accepting name v = .ok k) : k.setting.type.admits v = true := by
  rcases accepting_eq_ok_iff.mp h with ⟨named, hv⟩
  rw [type_setting named.1]
  exact Kind.has_iff.mp hv

end Key

namespace Config

variable {c : Config} {name other : String} {kind : Kind} {k : Key} {s t : Setting} {v w : Value}

theorem set_set (c : Config) (s : Setting) (v w : Value) : (c.set s v).set s w = c.set s w := by
  ext t
  by_cases h : t = s
  . subst h
    rw [get_set_self, get_set_self]
  . rw [get_set_of_ne _ _ h, get_set_of_ne _ _ h, get_set_of_ne _ _ h]

theorem set_comm (h : s ≠ t) (c : Config) (v w : Value) :
    (c.set s v).set t w = (c.set t w).set s v := by
  ext x
  by_cases hs : x = s
  . subst hs
    rw [get_set_of_ne _ _ h, get_set_self, get_set_self]
  . by_cases ht : x = t
    . subst ht
      rw [get_set_self, get_set_of_ne _ _ hs, get_set_self]
    . rw [get_set_of_ne _ _ ht, get_set_of_ne _ _ hs, get_set_of_ne _ _ hs, get_set_of_ne _ _ ht]

/-- What a reader of a kind finds under a name, with the fallback for names that do not suit it. -/
inductive Finds (c : Config) (kind : Kind) (name : String) (fallback : Value) : Value → Prop where
  | there {k : Key} (named : k.IsRegistered name) (h : k.kind = kind) :
    Finds c kind name fallback (c.get k.setting)
  | missing (h : ∀ k : Key, k.IsRegistered name → k.kind ≠ kind) :
    Finds c kind name fallback fallback

theorem finds_getKey (c : Config) (kind : Kind) (name : String) (fallback : Value) :
    c.Finds kind name fallback (c.getKey kind name fallback) := by
  unfold getKey
  split
  . next k hk =>
    rw [Key.lookup?_eq_some_iff] at hk
    exact .there hk.1 hk.2
  . next hk => exact .missing (Key.lookup?_eq_none_iff.mp hk)

theorem getKey_of_isRegistered (named : k.IsRegistered name) (c : Config) (fallback : Value) :
    c.getKey k.kind name fallback = c.get k.setting := by
  have h := c.finds_getKey k.kind name fallback
  generalize c.getKey k.kind name fallback = found at h
  cases h with
  | there found h => rw [found.unique named]
  | missing h => exact absurd rfl (h k named)

theorem getKey_of_kind_ne (h : ∀ k : Key, k.IsRegistered name → k.kind ≠ kind) (c : Config)
    (fallback : Value) : c.getKey kind name fallback = fallback := by
  rw [getKey, Key.lookup?_eq_none_iff.mpr h]

theorem WellTyped.has_get (h : c.WellTyped) (hk : k ∈ Key.all) : k.kind.Has (c.get k.setting) := by
  rw [Kind.has_iff, ← Key.type_setting hk]
  exact h k.setting

def tried (c : Config) (name : String) (v : Value) : Config :=
  match c.setKey name v with
  | .ok d => d
  | .error _ => c

theorem tried_of_accepting {f : KeyFault} (h : Key.accepting name v = .error f) (c : Config) :
    c.tried name v = c := by
  rw [tried, setKey, h]
  rfl

theorem tried_of_has (named : k.IsRegistered name) (h : k.kind.Has v) (c : Config) :
    c.tried name v = c.set k.setting v := by
  rw [tried, setKey, Key.accepting_eq_ok_iff.mpr ⟨named, h⟩]
  rfl

theorem tried_get (h : c.WellTyped) (named : k.IsRegistered name) :
    c.tried name (c.get k.setting) = c := by
  rw [tried_of_has named (h.has_get named.1), set_get_self]

theorem tried_tried (named : k.IsRegistered name) (h : k.kind.Has w) (c : Config) (v : Value) :
    (c.tried name v).tried name w = c.tried name w := by
  cases haccepting : Key.accepting name v with
  | error f => rw [tried_of_accepting haccepting]
  | ok l =>
    rcases Key.accepting_eq_ok_iff.mp haccepting with ⟨found, hv⟩
    cases found.unique named
    rw [tried_of_has named hv, tried_of_has named h, tried_of_has named h, set_set]

theorem tried_comm (h : name ≠ other) (c : Config) (v w : Value) :
    (c.tried name v).tried other w = (c.tried other w).tried name v := by
  cases hname : Key.accepting name v with
  | error f => rw [tried_of_accepting hname, tried_of_accepting hname]
  | ok k =>
    cases hother : Key.accepting other w with
    | error f => rw [tried_of_accepting hother, tried_of_accepting hother]
    | ok l =>
      rcases Key.accepting_eq_ok_iff.mp hname with ⟨hk, hv⟩
      rcases Key.accepting_eq_ok_iff.mp hother with ⟨hl, hw⟩
      rw [tried_of_has hk hv, tried_of_has hl hw, tried_of_has hl hw, tried_of_has hk hv,
        set_comm (hk.setting_ne hl h)]

theorem getKey_tried_of_ne (h : name ≠ other) (c : Config) (v : Value) (kind : Kind)
    (fallback : Value) :
    (c.tried name v).getKey kind other fallback = c.getKey kind other fallback := by
  cases hname : Key.accepting name v with
  | error f => rw [tried_of_accepting hname]
  | ok k =>
    rcases Key.accepting_eq_ok_iff.mp hname with ⟨hk, hv⟩
    rw [tried_of_has hk hv, getKey, getKey]
    split
    . next l hl =>
      rw [Key.lookup?_eq_some_iff] at hl
      rw [get_set_of_ne _ _ (hk.setting_ne hl.1 h).symm]
    . rfl

end Config
end NodeSettings
