import NodeSettings.Setting

/-!
This module contains configurations: a value for every setting. Reading a setting after an
assignment gives the value assigned, and the other settings keep theirs.
-/

namespace NodeSettings

/-- A value for every setting; it need not be of the type of the setting. -/
structure Config where
  get : Setting → Value

namespace Config

@[ext]
theorem ext {c d : Config} (h : ∀ s, c.get s = d.get s) : c = d := by
  cases c
  cases d
  congr
  exact funext h

def default : Config :=
  ⟨Setting.default⟩

def set (c : Config) (s : Setting) (v : Value) : Config :=
  ⟨fun t => if t = s then v else c.get t⟩

@[simp]
theorem get_set_self (c : Config) (s : Setting) (v : Value) : (c.set s v).get s = v := by
  simp [set]

@[simp]
theorem get_set_of_ne (c : Config) {s t : Setting} (v : Value) (h : t ≠ s) :
    (c.set s v).get t = c.get t := by
  simp [set, h]

@[simp]
theorem set_get_self (c : Config) (s : Setting) : c.set s (c.get s) = c := by
  ext t
  by_cases h : t = s <;> simp [set, h]

/-- Every setting holds a value of its type. -/
def WellTyped (c : Config) : Prop :=
  ∀ s : Setting, s.type.admits (c.get s) = true

theorem wellTyped_default : default.WellTyped := by
  intro s
  cases s <;> rfl

theorem WellTyped.set {c : Config} (h : c.WellTyped) {s : Setting} {v : Value}
    (hv : s.type.admits v = true) : (c.set s v).WellTyped := by
  intro t
  by_cases e : t = s
  . subst e
    simpa using hv
  . simpa [e] using h t

/-- A copy of a configuration, with the number that the objects in it get. -/
def copied (copy : Nat) (c : Config) : Config :=
  ⟨fun s => (c.get s).copied copy⟩

end Config
end NodeSettings
