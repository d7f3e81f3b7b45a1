import NodeSettings.Log.Setup

/-!
This module contains what a configuration of the log can come to, and what is left of the setup if
it fails: a configuration that is refused for its options changes nothing, but one that fails to
open its file has given up the old sinks by then.
-/

namespace NodeSettings
namespace Log

/-- The options cannot be carried out, whatever the files are. -/
def Options.AreRefused (o : Options) : Prop :=
  o.sink ∉ sinkNames ∨ Threshold.ofText? o.level = none

namespace Setup

variable {s : Setup} {fs : FileSystem} {o : Options} {e : Failure}

inductive Configures (s : Setup) (fs : FileSystem) (o : Options) :
    Except Failure Unit → Setup → FileSystem → Prop where
  | badSink (h : o.sink ∉ sinkNames) : Configures s fs o (.error (.badSink o.sink)) s fs
  | stays (known : o.sink ∈ sinkNames) (before : s.isConfigured = true) (h : o.force = false) :
    Configures s fs o (.ok ()) s fs
  | badLevel (known : o.sink ∈ sinkNames) (h : Threshold.ofText? o.level = none) :
    Configures s fs o (.error (.badLevel o.level)) s fs
  | unopened {level : Threshold} {e : Failure} {fs' : FileSystem} (known : o.sink ∈ sinkNames)
    (named : Threshold.ofText? o.level = some level) (h : openSink fs o = (.error e, fs')) :
    Configures s fs o (.error e) { s with level := some level, sinks := [] } fs'
  | replaces {level : Threshold} {sink : Sink} {fs' : FileSystem} (known : o.sink ∈ sinkNames)
    (named : Threshold.ofText? o.level = some level) (h : openSink fs o = (.ok sink, fs')) :
    Configures s fs o (.ok ()) ⟨some level, [sink], false, true⟩ fs'

theorem configures (s : Setup) (fs : FileSystem) (o : Options) :
    Configures s fs o (s.configure fs o).1 (s.configure fs o).2.1 (s.configure fs o).2.2 := by
  unfold configure
  by_cases known : o.sink ∈ sinkNames
  . rw [if_neg (by simpa using known)]
    split
    . next hstays =>
      rw [Bool.and_eq_true, Bool.not_eq_true'] at hstays
      exact .stays known hstays.1 hstays.2
    . split
      . next h => exact .badLevel known h
      . next level named =>
        dsimp only
        split
        . next h => exact .unopened known named h
        . next h => exact .replaces known named h
  . rw [if_pos (by simpa using known)]
    exact .badSink known

theorem configure_snd (before : s.isConfigured = true) (h : o.force = false) :
    (s.configure fs o).2 = (s, fs) := by
  unfold configure
  split
  . rfl
  . rw [before, h]
    rfl

theorem configure_eq_self (before : s.isConfigured = true) (h : o.force = false) :
    (s.configure fs o).2.1 = s := by
  rw [configure_snd before h]

theorem deliver_of_sinks_eq_nil (h : s.sinks = []) (stamp : String) (out : Output) (r : Record) :
    ∃ lines, s.deliver stamp out r = .ok { out with console := out.console ++ lines }
      ∧ ∀ line ∈ lines, (warningLevel : Int) ≤ r.level
        ∧ ∃ m, r.message = .ok m ∧ line = String.ofList m.chars := by
  have hnone : ∃ lines, (.ok out : Except LineFault Output) =
      .ok { out with console := out.console ++ lines }
        ∧ ∀ line ∈ lines, (warningLevel : Int) ≤ r.level
          ∧ ∃ m, r.message = .ok m ∧ line = String.ofList m.chars :=
    ⟨[], by rw [List.append_nil], by simp⟩
  unfold deliver
  rw [h, List.isEmpty_nil, if_pos rfl]
  split
  . next m hm =>
    split
    . next hlevel =>
      refine ⟨[String.ofList m.chars], rfl, ?_⟩
      intro line hline
      rw [List.mem_singleton] at hline
      exact ⟨hlevel, m, hm, hline⟩
    . exact hnone
  . exact hnone

theorem emit_of_sinks_eq_nil (h : s.sinks = []) (stamp : String) (out : Output) (r : Record) :
    ∃ lines, s.emit stamp out r = .ok { out with console := out.console ++ lines }
      ∧ ∀ line ∈ lines, s.admits r = true ∧ (warningLevel : Int) ≤ r.level
        ∧ ∃ m, r.message = .ok m ∧ line = String.ofList m.chars := by
  cases hadmits : s.admits r with
  | false =>
    refine ⟨[], ?_, by simp⟩
    rw [emit, hadmits, List.append_nil]
    rfl
  | true =>
    rcases deliver_of_sinks_eq_nil h stamp out r with ⟨lines, hdeliver, hlines⟩
    refine ⟨lines, ?_, fun line hline => ⟨rfl, hlines line hline⟩⟩
    simp [emit, hadmits, hdeliver]

/--
The sinks are given up, so that records leave no more than their bare message behind. If the setup
has been configured, this lasts until it is configured by force.
-/
structure GivesUp (s : Setup) (o : Options) (s' : Setup) : Prop where
  level : s'.level = Threshold.ofText? o.level
  sinks : s'.sinks = []
  propagates : s'.propagates = s.propagates
  isConfigured : s'.isConfigured = s.isConfigured
  lasts : s.isConfigured = true → ∀ fs o', o'.force = false → (s'.configure fs o').2.1 = s'
  emit : ∀ stamp out r, ∃ lines,
    s'.emit stamp out r = .ok { out with console := out.console ++ lines }
      ∧ ∀ line ∈ lines, s'.admits r = true ∧ (warningLevel : Int) ≤ r.level
        ∧ ∃ m, r.message = .ok m ∧ line = String.ofList m.chars

/--
A configuration that fails keeps the setup if it is refused for its options; the files stay then,
too. If it is not, it is the sink that cannot be opened. The old sinks have been given up, and the
setup is the same only if there were none and the level was the one that has been asked for.
-/
theorem configure_error_keeps_iff (h : (s.configure fs o).1 = .error e) :
    ((s.configure fs o).2.1 = s ↔
        o.AreRefused ∨ (s.sinks = [] ∧ s.level = Threshold.ofText? o.level))
      ∧ (o.AreRefused → (s.configure fs o).2.2 = fs)
      ∧ (¬ o.AreRefused → openSink fs o = (.error e, (s.configure fs o).2.2)
        ∧ s.GivesUp o (s.configure fs o).2.1) := by
  have hconfigures := s.configures fs o
  rw [h] at hconfigures
  generalize (s.configure fs o).2.1 = s', (s.configure fs o).2.2 = fs' at hconfigures ⊢
  cases hconfigures with
  | badSink hsink =>
    have hrefused : o.AreRefused := .inl hsink
    simp [hrefused]
  | badLevel known hlevel =>
    have hrefused : o.AreRefused := .inr hlevel
    simp [hrefused]
  | @unopened level _ _ known named hopen =>
    have hnot : ¬ o.AreRefused := by
      rintro (hsink | hlevel)
      . exact hsink known
      . rw [named] at hlevel
        cases hlevel
    refine ⟨?_, fun hrefused => absurd hrefused hnot, fun _ => ⟨hopen, ?_⟩⟩
    . rw [named]
      constructor
      . intro heq
        rw [← heq]
        exact .inr ⟨rfl, rfl⟩
      . rintro (hrefused | ⟨hsinks, hlevel⟩)
        . exact absurd hrefused hnot
        . rw [← hsinks, ← hlevel]
    . refine ⟨named.symm, rfl, rfl, rfl, ?_, emit_of_sinks_eq_nil rfl⟩
      intro before fs o' hforce
      exact configure_eq_self before hforce

def console : Setup :=
  (configure {} .empty {}).2.1

def filesWithoutLogs : FileSystem :=
  FileSystem.empty.put (Text.octets "logs" :: FileSystem.work) (.file ByteArray.empty)

theorem configure_error_keeps_iff_withoutLogs :
    (console.configure filesWithoutLogs { sink := "file", force := true }).1 =
        .error (.file "logs" .occupied)
      ∧ console.GivesUp { sink := "file", force := true }
        (console.configure filesWithoutLogs { sink := "file", force := true }).2.1 := by
  have herror : (console.configure filesWithoutLogs { sink := "file", force := true }).1 =
      .error (.file "logs" .occupied) := rfl
  have hnot : ¬ Options.AreRefused { sink := "file", force := true } := by
    rintro (hsink | hlevel)
    . exact hsink (by decide)
    . revert hlevel
      decide
  exact ⟨herror, ((configure_error_keeps_iff herror).2.2 hnot).2⟩

/-- The configuration fails, and the sink of the one before is lost. -/
theorem not_configure_error_keeps_withoutLogs :
    (configure {} .empty {}).1 = .ok ()
      ∧ (console.configure filesWithoutLogs { sink := "file", force := true }).1 =
        .error (.file "logs" .occupied)
      ∧ (console.configure filesWithoutLogs { sink := "file", force := true }).2.1 ≠ console := by
  exact ⟨rfl, rfl, by decide +kernel⟩

end Setup
end Log
end NodeSettings
