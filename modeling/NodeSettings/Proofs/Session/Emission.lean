import NodeSettings.Proofs.Log.Delivery
import NodeSettings.Session.Step

/-!
This module contains what logging records does to the files, the kept records and the console of a
session.
-/

namespace NodeSettings
namespace Session

variable {s s' : Session}

def HasMessage (r : Log.Record) : Prop :=
  ∃ m, r.message = .ok m

/-- What becomes of the files, the kept records and the console if a step logs just some records. -/
structure Emits (s : Session) (records : List Log.Record) (s' : Session) : Prop where
  outcome : s.log.emitAll stamp ⟨[], [], s.files⟩ records =
    .ok ⟨s'.records, s'.console, s'.files⟩
  log : s'.log = s.log

theorem exists_write {r : Log.Record} (h : HasMessage r) (out : Log.Output) (sink : Log.Sink) :
    ∃ out', out.write stamp r sink = .ok out' := by
  cases sink with
  | recorder =>
    rcases h with ⟨m, hm⟩
    simp [Log.Output.write, hm]
  | console service =>
    simp only [Log.Output.write]
    split
    . exact ⟨_, rfl⟩
    . exact ⟨_, rfl⟩
  | file service place =>
    simp only [Log.Output.write]
    split
    . exact ⟨_, rfl⟩
    . exact ⟨_, rfl⟩

theorem exists_emit {r : Log.Record} (h : HasMessage r) (log : Log.Setup) (out : Log.Output) :
    ∃ out', log.emit stamp out r = .ok out' := by
  unfold Log.Setup.emit Log.Setup.deliver
  split
  . exact ⟨out, rfl⟩
  . split
    . rcases h with ⟨m, hm⟩
      rw [hm]
      dsimp only
      split
      . exact ⟨_, rfl⟩
      . exact ⟨_, rfl⟩
    . apply Except.exists_foldlM_eq_ok
      intro sink _ out
      exact exists_write h out sink

theorem exists_emitAll {records : List Log.Record} (h : ∀ r ∈ records, HasMessage r)
    (log : Log.Setup) (out : Log.Output) : ∃ out', log.emitAll stamp out records = .ok out' := by
  apply Except.exists_foldlM_eq_ok
  intro r hr out
  exact exists_emit (h r hr) log out

theorem emit_eq {records : List Log.Record} {out : Log.Output}
    (h : s.log.emitAll stamp ⟨s.records, s.console, s.files⟩ records = .ok out) :
    s.emit records =
      { s with files := out.files, records := out.records, console := out.console } := by
  simp [emit, emit?, h]

theorem entry_emit {place : Location} (hplace : ¬ s.log.IsAt place) (records : List Log.Record) :
    (s.emit records).files.entry place = s.files.entry place := by
  unfold emit emit?
  cases h : s.log.emitAll stamp ⟨s.records, s.console, s.files⟩ records with
  | error e => rfl
  | ok out => exact Log.entry_emitAll hplace h

theorem emits_fresh (s : Session) : s.Emits [] s.fresh :=
  ⟨rfl, rfl⟩

theorem Emits.emit {records more : List Log.Record} (h : s.Emits records s')
    (hmore : ∀ r ∈ more, HasMessage r) : s.Emits (records ++ more) (s'.emit more) := by
  rcases exists_emitAll hmore s'.log ⟨s'.records, s'.console, s'.files⟩ with ⟨out, hout⟩
  have hemit := emit_eq hout
  constructor
  . rw [Log.Setup.emitAll, List.foldlM_append]
    -- What is logged later goes on from what the records so far have come to.
    rw [← Log.Setup.emitAll, h.outcome, hemit]
    rw [h.log] at hout
    exact hout
  . rw [hemit]
    exact h.log

theorem emitAll_recording {records : List Log.Record} (out : Log.Output)
    (h : ∀ r ∈ records, HasMessage r ∧ Log.debugLevel ≤ r.level) :
    Log.Setup.recording.emitAll stamp out records =
      .ok { out with records := out.records ++ records } := by
  induction records generalizing out with
  | nil => simp [Log.Setup.emitAll]
  | cons r records ih =>
    rcases h r (.head _) with ⟨⟨m, hm⟩, hlevel⟩
    -- A record is admitted from the level on that has the least number.
    have hadmits : Log.Setup.recording.admits r = true := by
      simp only [Log.Setup.admits, decide_eq_true_eq]
      exact hlevel
    have hemit : Log.Setup.recording.emit stamp out r =
        .ok { out with records := out.records ++ [r] } := by
      rw [Log.Setup.emit, hadmits, Log.Setup.deliver]
      simp [Log.Setup.recording, Log.Output.write, hm]
    rw [Log.Setup.emitAll, List.foldlM_cons, hemit, Except.ok_bind, ← Log.Setup.emitAll, ih]
    . simp
    . intro r' hr'
      exact h r' (.tail _ hr')

theorem Emits.records_eq {records : List Log.Record} (h : s.Emits records s')
    (hlog : s.log = .recording)
    (hrecords : ∀ r ∈ records, HasMessage r ∧ Log.debugLevel ≤ r.level) :
    s'.records = records := by
  have houtcome := h.outcome
  rw [hlog, emitAll_recording _ hrecords, Except.ok.injEq, Log.Output.mk.injEq] at houtcome
  exact houtcome.1.symm

def journal (s : Session) : Log.Journal :=
  ⟨s.log, s.loggers, ⟨s.records, s.console, s.files⟩⟩

def event? : Step → Option Log.Event
  | .configure o => some (.configure o)
  | .log logger level template arguments extras =>
    some (.record logger stamp
      { logger := Log.loggerName logger, level, template, arguments, extras })
  | _ => none

theorem configure_journal {o : Log.Options} (h : (s.configure o).1 = .done) :
    s.journal.step (.configure o) = .ok (s.configure o).2.journal := by
  rcases hconfigure : s.log.configure s.files o with ⟨result, log, files⟩
  simp only [configure, hconfigure] at h ⊢
  simp only [Log.Journal.step, journal, hconfigure]
  cases result with
  | error e => cases h
  | ok done => rfl

theorem logRecord_journal {r : Log.Record} (h : (s.logRecord r).1 = .done) :
    s.journal.record stamp r = .ok (s.logRecord r).2.journal := by
  generalize hout : s.logRecord r = out at h ⊢
  simp only [logRecord, Log.Loggers.admits_meet] at hout
  split at hout
  . next hadmits =>
    rw [Bool.not_eq_true'] at hadmits
    rw [← hout]
    exact Log.Journal.record_of_not_admits hadmits stamp
  . next hadmits =>
    rw [Bool.not_eq_true', Bool.not_eq_false] at hadmits
    split at hout
    . rw [← hout] at h
      cases h
    . split at hout
      . rw [← hout] at h
        cases h
      . next hdeliver =>
        rw [← hout]
        exact Log.Journal.record_of_deliver hadmits hdeliver

theorem step_journal {t : Step} {e : Log.Event} (he : event? t = some e)
    (h : (s.step t).1 = .done) : s.fresh.journal.step e = .ok (s.step t).2.journal := by
  cases t with
  | configure o =>
    cases he
    exact configure_journal h
  | log logger level template arguments extras =>
    cases he
    exact logRecord_journal h
  | _ => cases he

end Session
end NodeSettings
