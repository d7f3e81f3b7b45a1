import NodeSettings.Proofs.Session.Change

/-!
This module contains what a step of a session leaves alone, and a run with it: configurations that
it does not write to, and what is kept under other names than its own.
-/

namespace NodeSettings
namespace Session

variable {s s' : Session} {t : Step} {steps : List Step} {slot : Slot} {n : Nat} {c : Aggregate}

theorem config_eq_of_configs (h : s'.configs = s.configs) (n : Nat) : s'.config n = s.config n := by
  rw [config, h, config]

theorem config_eq_of_append (hn : n < s.configs.length) (h : s'.configs = s.configs ++ [c]) :
    s'.config n = s.config n := by
  simp only [config, List.getD_eq_getElem?_getD, h]
  rw [List.getElem?_append_left hn]

theorem config_added (h : s'.configs = s.configs ++ [c]) : s'.config s.nextNumber = c := by
  simp [config, nextNumber, h]

theorem config_eq_of_set {m : Nat} (h : s'.configs = s.configs.set m c) (hne : m ≠ n) :
    s'.config n = s.config n := by
  simp only [config, List.getD_eq_getElem?_getD, h]
  rw [List.getElem?_set_ne hne]

theorem config_setConfig_self (hn : n < s.configs.length) (c : Aggregate) :
    (s.setConfig n c).config n = c := by
  simp [setConfig, config, hn]

theorem Change.config_eq (h : s.Change t s') (hn : n < s.configs.length)
    (hnot : ¬ s.WritesTo t n) : s'.config n = s.config n := by
  cases h with
  | stays h | keeps name slot under shares h => exact config_eq_of_configs h.configs n
  | adds name c under h | builds name source c under delivers h
  | reloads on name k views c under kept delivers h => exact config_eq_of_append hn h.configs
  | writes m c target h =>
    apply config_eq_of_set h.configs
    rintro rfl
    exact hnot target

theorem Change.length_le (h : s.Change t s') : s.configs.length ≤ s'.configs.length := by
  cases h with
  | stays h | keeps name slot under shares h | adds name c under h
  | builds name source c under delivers h | reloads on name k views c under kept delivers h
  | writes m c target h => simp [h.configs]

theorem slot_eq_of_slots (h : s'.slots = s.slots) (name : String) : s'.slot name = s.slot name := by
  rw [Session.slot, h, Session.slot]

theorem slot_eq_of_cons {dest name : String} (h : s'.slots = (dest, slot) :: s.slots)
    (hne : name ≠ dest) : s'.slot name = s.slot name := by
  have hbeq : (name == dest) = false := beq_false_of_ne hne
  simp only [Session.slot, h, List.lookup_cons, hbeq]

theorem Change.slot_eq {name : String} (h : s.Change t s') (hname : dest? t ≠ some name) :
    s'.slot name = s.slot name := by
  have hne : ∀ dest, dest? t = some dest → name ≠ dest := by
    rintro dest hdest rfl
    exact hname hdest
  cases h with
  | stays h | writes n c target h => exact slot_eq_of_slots h.slots name
  | keeps dest slot under shares h => exact slot_eq_of_cons h.slots (hne dest under)
  | adds dest c under h => exact slot_eq_of_cons h.slots (hne dest under)
  | builds dest source c under delivers h => exact slot_eq_of_cons h.slots (hne dest under)
  | reloads on dest k views c under kept delivers h =>
    exact slot_eq_of_cons h.slots (hne dest under)

theorem run_cons (s : Session) (t : Step) (steps : List Step) :
    s.run (t :: steps) = (s.step t).2.run steps :=
  rfl

theorem run_append (s : Session) (steps later : List Step) :
    s.run (steps ++ later) = (s.run steps).run later := by
  unfold run
  rw [List.foldl_append]

theorem run_concat (s : Session) (steps : List Step) (t : Step) :
    s.run (steps ++ [t]) = ((s.run steps).step t).2 :=
  s.run_append steps [t]

theorem length_configs_run (s : Session) (steps : List Step) :
    s.configs.length ≤ (s.run steps).configs.length := by
  induction steps generalizing s with
  | nil => exact Nat.le_refl _
  | cons t steps ih => exact Nat.le_trans (change_step s t).length_le (ih _)

theorem slot_run {name : String} (h : ∀ t ∈ steps, dest? t ≠ some name) :
    (s.run steps).slot name = s.slot name := by
  induction steps generalizing s with
  | nil => rfl
  | cons t steps ih =>
    rw [run_cons, ih fun u hu => h u (List.mem_cons_of_mem t hu)]
    exact (change_step s t).slot_eq (h t List.mem_cons_self)

end Session
end NodeSettings
