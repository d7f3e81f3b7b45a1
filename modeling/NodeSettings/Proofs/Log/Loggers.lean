import NodeSettings.Log.Loggers

/-!
This module contains which loggers are sure to be under the root, and what has been decided about
their levels: it stays what the setup says while the log is configured and records are given to
loggers.
-/

namespace NodeSettings
namespace Log
namespace Loggers

variable {l : Loggers} {s : Setup} {o : Options} {r : Record}
variable {names : List Text} {name : Text}

def rootPoints : List CodePoint :=
  (rootName : Text).points

theorem leadsToRoot_cons_cons (p q : CodePoint) (rest : List CodePoint) :
    leadsToRoot names (p :: q :: rest) =
      if p ≠ .char '.' then leadsToRoot names (q :: rest)
      else if (⟨(q :: rest).reverse⟩ : Text) = (rootName : Text) then true
      else if names.contains ⟨(q :: rest).reverse⟩ then leadsToRoot names (q :: rest)
      else leadsToRoot names rest := by
  rfl

theorem getLast?_ne_of_cons {p d : CodePoint} {ps : List CodePoint}
    (h : (p :: ps).getLast? ≠ some d) : ps.getLast? ≠ some d := by
  cases ps with
  | nil => simp
  | cons q ps => rwa [List.getLast?_cons_cons] at h

theorem leadsToRoot_of_getLast? : ∀ {ps : List CodePoint}, ps.getLast? ≠ some (.char '.') →
    leadsToRoot names (ps ++ .char '.' :: rootPoints.reverse) = true
  | [], _ => rfl
  | [p], h => by
    have hp : p ≠ .char '.' := by simpa using h
    rw [List.singleton_append, leadsToRoot_cons_cons, if_pos hp]
    rfl
  | p :: q :: ps, h => by
    have hnext : leadsToRoot names (q :: (ps ++ .char '.' :: rootPoints.reverse)) = true :=
      leadsToRoot_of_getLast? (getLast?_ne_of_cons h)
    have hskip : leadsToRoot names (ps ++ .char '.' :: rootPoints.reverse) = true :=
      leadsToRoot_of_getLast? (getLast?_ne_of_cons (getLast?_ne_of_cons h))
    rw [List.cons_append, List.cons_append, leadsToRoot_cons_cons]
    split
    . exact hnext
    . split
      . rfl
      . split
        . exact hnext
        . exact hskip

theorem leadsToRoot_cons_names {ps : List CodePoint} (h : ps.length ≤ name.points.length) :
    leadsToRoot (name :: names) ps = leadsToRoot names ps := by
  fun_induction leadsToRoot names ps with
  | case1 p q rest hp ih =>
    rw [leadsToRoot_cons_cons, if_pos hp, ih (Nat.le_of_succ_le h)]
  | case2 p q rest above hp hroot =>
    rw [leadsToRoot_cons_cons, if_neg hp, if_pos hroot]
  | case3 p q rest above hp hroot hnames ih =>
    have hnames' : (name :: names).contains ⟨(q :: rest).reverse⟩ = true := by
      rw [List.contains_cons, hnames, Bool.or_true]
    rw [leadsToRoot_cons_cons, if_neg hp, if_neg hroot, if_pos hnames', ih (Nat.le_of_succ_le h)]
  | case4 p q rest above hp hroot hnames ih =>
    -- What is above is shorter than the name, so it is another one.
    have hne : above ≠ name := by
      intro heq
      rw [← heq] at h
      simp only [above, List.length_cons, List.length_reverse] at h
      omega
    have hnames' : ¬ (name :: names).contains above = true := by
      rw [List.contains_cons, Bool.or_eq_true, beq_iff_eq]
      rintro (heq | hmem)
      . exact hne heq
      . exact hnames hmem
    have hle : rest.length ≤ name.points.length := by
      simp only [List.length_cons] at h
      omega
    rw [leadsToRoot_cons_cons, if_neg hp, if_neg hroot, if_neg hnames', ih hle]
  | case5 ps hps =>
    unfold leadsToRoot
    split
    . exact absurd rfl (hps _ _ _)
    . rfl

theorem isUnderRoot_meet (l : Loggers) (s : Setup) (r : Record) :
    (l.meet s r).isUnderRoot r.logger = l.isUnderRoot r.logger := by
  unfold isUnderRoot meet
  rw [leadsToRoot_cons_names (by simp)]

def isDoubleDotted (name : Text) : Bool :=
  (rootPoints ++ [CodePoint.char '.', CodePoint.char '.']).isPrefixOf name.points

theorem loggerName_eq (name : Text) : loggerName name = (rootName : Text)
    ∨ ∃ rest, (loggerName name).points = rootPoints ++ .char '.' :: rest := by
  unfold loggerName
  dsimp only
  split
  . next h =>
    rw [Bool.or_eq_true, decide_eq_true_eq, List.isPrefixOf_iff_prefix] at h
    rcases h with h | ⟨rest, h⟩
    . exact .inl h
    . exact .inr ⟨rest, h.symm⟩
  . exact .inr ⟨name.points, rfl⟩

theorem isUnderRoot_loggerName (h : isDoubleDotted (loggerName name) = false) (l : Loggers) :
    l.isUnderRoot (loggerName name) = true := by
  unfold isUnderRoot
  rcases loggerName_eq name with hroot | ⟨rest, hrest⟩
  . simp [hroot]
  . have hfirst : rest.head? ≠ some (.char '.') := by
      intro hhead
      rcases List.head?_eq_some_iff.mp hhead with ⟨more, rfl⟩
      have hdots : isDoubleDotted (loggerName name) = true := by
        rw [isDoubleDotted, hrest, List.isPrefixOf_iff_prefix]
        exact ⟨more, by simp⟩
      rw [hdots] at h
      cases h
    have hreverse : (loggerName name).points.reverse =
        rest.reverse ++ .char '.' :: rootPoints.reverse := by
      rw [hrest]
      simp
    rw [hreverse, leadsToRoot_of_getLast? (by rwa [List.getLast?_reverse]), Bool.or_true]

theorem setupOf_loggerName (h : isDoubleDotted (loggerName name) = false) (l : Loggers)
    (s : Setup) : l.setupOf s (loggerName name) = s :=
  if_pos (isUnderRoot_loggerName h l)

/-- What has been decided about loggers that are sure to be under the root is what a setup says. -/
def Agrees (l : Loggers) (s : Setup) : Prop :=
  ∀ name (level : Int) b, isDoubleDotted (loggerName name) = false →
    l.decided.lookup (loggerName name, level) = some b → b = decide ((s.leastLevel : Int) ≤ level)

theorem agrees_of_decided_eq_nil (h : l.decided = []) (s : Setup) : l.Agrees s := by
  intro name level b _ hb
  rw [h] at hb
  cases hb

theorem Agrees.admits_eq (h : l.Agrees s) (hlogger : r.logger = loggerName name)
    (hdots : isDoubleDotted (loggerName name) = false) : l.admits s r = s.admits r := by
  unfold admits
  rw [hlogger, setupOf_loggerName hdots]
  cases hb : l.decided.lookup (loggerName name, r.level) with
  | none => rfl
  | some b => exact h name r.level b hdots hb

theorem admits_meet (l : Loggers) (s : Setup) (r : Record) :
    (l.meet s r).admits s r = l.admits s r := by
  simp [admits, meet]

theorem Agrees.meet (h : l.Agrees s) (r : Record) : (l.meet s r).Agrees s := by
  intro name level b hdots hb
  rw [Loggers.meet, List.lookup_cons] at hb
  split at hb
  . next hkey =>
    rw [beq_iff_eq, Prod.mk.injEq] at hkey
    rw [← Option.some.inj hb, h.admits_eq hkey.1.symm hdots, hkey.2]
    rfl
  . exact h name level b hdots hb

theorem configured_of_unforced (before : s.isConfigured = true) (h : o.force = false) :
    l.configured s o = l := by
  simp [configured, Setup.newLevel?, before, h]

theorem decided_configured {level : Threshold} (known : o.sink ∈ sinkNames)
    (hcounts : s.isConfigured = false ∨ o.force = true)
    (named : Threshold.ofText? o.level = some level) : (l.configured s o).decided = [] := by
  have hlevel : s.newLevel? o = some level := by
    rcases hcounts with hcounts | hcounts
    . simp [Setup.newLevel?, known, hcounts, named]
    . simp [Setup.newLevel?, known, hcounts, named]
  simp [configured, hlevel]

end Loggers
end Log
end NodeSettings
