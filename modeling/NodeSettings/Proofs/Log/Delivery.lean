import NodeSettings.Proofs.FileSystem
import NodeSettings.Proofs.Log.Line
import NodeSettings.Proofs.Log.Loggers
import NodeSettings.Proofs.Log.Setup

/-!
This module contains what becomes of records while the log is configured again and again: a record
that is admitted is written once, as one line, to the sink of the configuration that counts, and
what has been written stays. The exception is a logger whose way up leads past the root: none of its
records comes to the sink.
-/

namespace NodeSettings
namespace Log

variable {fs fs' : FileSystem} {o : Options} {s s' : Setup} {out out' : Output} {r : Record}
variable {sink : Sink} {stamp line : String}

inductive Options.Selects (o : Options) (fs : FileSystem) : Sink → Prop where
  | console (h : o.sink = "stdout") : Selects o fs (.console o.service)
  | file {place : Location} {content : ByteArray} (h : o.sink = "file")
    (located : fs.locate o.filePath = .ok place)
    (there : fs.entry place = some (.file content)) : Selects o fs (.file o.service place)

theorem Options.Selects.of_grows (h : o.Selects fs sink) (hfiles : fs.Grows fs') :
    o.Selects fs' sink := by
  cases h with
  | console h => exact .console h
  | file h located there =>
    rcases hfiles.file _ _ there with ⟨more, hmore⟩
    exact .file h (hfiles.locate located) hmore

theorem openFile_eq_ok {p : Path} {place : Location} (h : openFile fs p = (.ok place, fs')) :
    fs.Grows fs' ∧ fs'.locate p = .ok place
      ∧ ∃ content, fs'.entry place = some (.file content) := by
  have hmade := (FileSystem.gainsDirectories_makeDirectories fs p.parent).grows
  unfold openFile at h
  split at h
  . cases h
  . next hmake =>
    rw [hmake] at hmade
    split at h
    . cases h
    . next hopen =>
      cases h
      rcases FileSystem.openToAppend_eq_ok hopen with ⟨hgrows, hplace⟩
      exact ⟨hmade.trans hgrows, hplace⟩

theorem openSink_eq_ok (known : o.sink ∈ sinkNames) (h : openSink fs o = (.ok sink, fs')) :
    fs.Grows fs' ∧ o.Selects fs' sink := by
  unfold openSink at h
  split at h
  . next hfile =>
    split at h
    . cases h
    . next hopen =>
      cases h
      rcases openFile_eq_ok hopen with ⟨hgrows, hlocate, content, hcontent⟩
      exact ⟨hgrows, .file hfile hlocate hcontent⟩
  . next hfile =>
    cases h
    have hconsole : o.sink = "stdout" := by
      simp only [sinkNames, List.mem_cons, List.not_mem_nil, or_false] at known
      exact known.resolve_right hfile
    exact ⟨.refl fs, .console hconsole⟩

theorem configure_of_counts (hcounts : s.isConfigured = false ∨ o.force = true)
    (h : s.configure fs o = (.ok (), s', fs')) :
    ∃ level sink, s' = ⟨some level, [sink], false, true⟩ ∧ o.sink ∈ sinkNames
      ∧ Threshold.ofText? o.level = some level ∧ fs.Grows fs' ∧ o.Selects fs' sink := by
  have hconfigures := s.configures fs o
  rw [h] at hconfigures
  cases hconfigures with
  | stays known before hforce =>
    rcases hcounts with hcounts | hcounts
    . rw [hcounts] at before
      cases before
    . rw [hforce] at hcounts
      cases hcounts
  | @replaces level sink _ known named hopen =>
    rcases openSink_eq_ok known hopen with ⟨hgrows, hselects⟩
    exact ⟨level, sink, rfl, known, named, hgrows, hselects⟩

/-- What has been written stays in the files and on the console. -/
structure Output.Keeps (out out' : Output) : Prop where
  files : out.files.Grows out'.files
  console : out.console <+: out'.console

theorem Output.Keeps.refl (out : Output) : out.Keeps out :=
  ⟨.refl _, List.prefix_refl _⟩

theorem Output.Keeps.trans {last : Output} (h : out.Keeps out') (hlast : out'.Keeps last) :
    out.Keeps last :=
  ⟨h.files.trans hlast.files, h.console.trans hlast.console⟩

/-- If a sink is a file, it is there. -/
def Sink.IsOpen (fs : FileSystem) : Sink → Prop
  | .file _ place => ∃ content, fs.entry place = some (.file content)
  | _ => True

theorem Sink.IsOpen.of_grows (h : sink.IsOpen fs) (hfiles : fs.Grows fs') : sink.IsOpen fs' := by
  cases sink with
  | recorder => trivial
  | console service => trivial
  | file service place =>
    rcases h with ⟨content, hcontent⟩
    rcases hfiles.file _ _ hcontent with ⟨more, hmore⟩
    exact ⟨_, hmore⟩

theorem Options.Selects.isOpen (h : o.Selects fs sink) : sink.IsOpen fs := by
  cases h with
  | console h => trivial
  | file h located there => exact ⟨_, there⟩

inductive Output.Gains (out : Output) (line : String) : Sink → Output → Prop where
  | console {service : String} :
    Gains out line (.console service) { out with console := out.console ++ [line] }
  | file {service : String} {place : Location} {before : ByteArray}
    (there : out.files.entry place = some (.file before)) :
    Gains out line (.file service place)
      { out with files := out.files.put place (.file (before ++ (line ++ "\n").toUTF8)) }

theorem exists_gains (hselects : o.Selects out.files sink)
    (hline : r.line stamp o.service = .ok line) :
    ∃ out', out.write stamp r sink = .ok out' ∧ out.Gains line sink out' := by
  cases hselects with
  | console h =>
    refine ⟨_, ?_, .console⟩
    simp [Output.write, hline]
  | file h located there =>
    refine ⟨_, ?_, .file there⟩
    simp [Output.write, hline, FileSystem.append_of_file there]

theorem write_eq_ok (h : out.write stamp r sink = .ok out') :
    (out'.files = out.files ∧ out.console <+: out'.console)
      ∨ ∃ service place content, sink = .file service place
        ∧ out' = { out with files := out.files.append place content } := by
  cases sink with
  | recorder =>
    unfold Output.write at h
    rw [Except.bind_eq_ok_iff] at h
    rcases h with ⟨m, -, h⟩
    cases h
    exact .inl ⟨rfl, List.prefix_refl _⟩
  | console service =>
    unfold Output.write at h
    dsimp only at h
    split at h
    . cases h
      exact .inl ⟨rfl, List.prefix_refl _⟩
    . cases h
      exact .inl ⟨rfl, List.prefix_append _ _⟩
  | file service place =>
    unfold Output.write at h
    dsimp only at h
    split at h
    . cases h
      exact .inl ⟨rfl, List.prefix_refl _⟩
    . cases h
      exact .inr ⟨service, place, _, rfl, rfl⟩

theorem deliver_eq_ok (h : s.deliver stamp out r = .ok out') :
    (out'.files = out.files ∧ out.console <+: out'.console)
      ∨ s.sinks.foldlM (fun out sink => out.write stamp r sink) out = .ok out' := by
  unfold Setup.deliver at h
  split at h
  . split at h
    . split at h
      . cases h
        exact .inl ⟨rfl, List.prefix_append _ _⟩
      . cases h
        exact .inl ⟨rfl, List.prefix_refl _⟩
    . cases h
      exact .inl ⟨rfl, List.prefix_refl _⟩
  . exact .inr h

theorem Output.keeps_of_files_eq (hfiles : out'.files = out.files)
    (hconsole : out.console <+: out'.console) : out.Keeps out' := by
  refine ⟨?_, hconsole⟩
  rw [hfiles]
  exact .refl _

theorem keeps_write (hopen : sink.IsOpen out.files) (h : out.write stamp r sink = .ok out') :
    out.Keeps out' := by
  rcases write_eq_ok h with ⟨hfiles, hconsole⟩ | ⟨service, place, content, rfl, rfl⟩
  . exact Output.keeps_of_files_eq hfiles hconsole
  . rcases hopen with ⟨before, hbefore⟩
    have hplace : out.files.entry place ≠ some .directory := by simp [hbefore]
    exact ⟨FileSystem.grows_append hplace _, List.prefix_refl _⟩

theorem keeps_writeAll {sinks : List Sink} (hopen : ∀ sink ∈ sinks, sink.IsOpen out.files)
    (h : sinks.foldlM (fun out sink => out.write stamp r sink) out = .ok out') :
    out.Keeps out' := by
  refine Except.of_foldlM_eq_ok (p := out.Keeps) ?_ (.refl out) h
  intro sink hsink before after hbefore hwrite
  -- Writing to one sink does not close the others.
  have hstill : sink.IsOpen before.files := (hopen sink hsink).of_grows hbefore.files
  exact hbefore.trans (keeps_write hstill hwrite)

theorem keeps_deliver (hopen : ∀ sink ∈ s.sinks, sink.IsOpen out.files)
    (h : s.deliver stamp out r = .ok out') : out.Keeps out' := by
  rcases deliver_eq_ok h with ⟨hfiles, hconsole⟩ | h
  . exact Output.keeps_of_files_eq hfiles hconsole
  . exact keeps_writeAll hopen h

def Setup.IsAt (s : Setup) (place : Location) : Prop :=
  ∃ service, .file service place ∈ s.sinks

theorem entry_write {place : Location} (hplace : ∀ service, sink ≠ .file service place)
    (h : out.write stamp r sink = .ok out') : out'.files.entry place = out.files.entry place := by
  rcases write_eq_ok h with ⟨hfiles, -⟩ | ⟨service, other, content, rfl, rfl⟩
  . rw [hfiles]
  . apply FileSystem.entry_append_of_ne
    rintro rfl
    exact hplace service rfl

theorem entry_deliver {place : Location} (hplace : ¬ s.IsAt place)
    (h : s.deliver stamp out r = .ok out') : out'.files.entry place = out.files.entry place := by
  rcases deliver_eq_ok h with ⟨hfiles, -⟩ | h
  . rw [hfiles]
  . refine Except.of_foldlM_eq_ok
      (p := fun now => now.files.entry place = out.files.entry place) ?_ rfl h
    intro sink hsink before after hbefore hwrite
    rw [← hbefore]
    apply entry_write _ hwrite
    rintro service rfl
    exact hplace ⟨service, hsink⟩

theorem entry_emitAll {place : Location} {records : List Record} (hplace : ¬ s.IsAt place)
    (h : s.emitAll stamp out records = .ok out') :
    out'.files.entry place = out.files.entry place := by
  refine Except.of_foldlM_eq_ok
    (p := fun now => now.files.entry place = out.files.entry place) ?_ rfl h
  intro r hr before after hbefore hemit
  rw [← hbefore]
  unfold Setup.emit at hemit
  split at hemit
  . cases hemit
    rfl
  . exact entry_deliver hplace hemit

theorem deliver_of_sinks_eq_singleton (h : s.sinks = [sink]) (stamp : String) (out : Output)
    (r : Record) : s.deliver stamp out r = out.write stamp r sink := by
  unfold Setup.deliver
  simp only [h, List.isEmpty_cons, Bool.false_eq_true, if_false]
  exact bind_pure _

inductive Event where
  | configure (o : Options)
  | record (name : Text) (stamp : String) (r : Record)

structure Journal where
  setup : Setup := {}
  loggers : Loggers := {}
  out : Output

namespace Journal

def record (j : Journal) (stamp : String) (r : Record) : Except Failure Journal :=
  let loggers := j.loggers.meet j.setup r
  if !loggers.admits j.setup r then return { j with loggers }
  else
    match (loggers.setupOf j.setup r.logger).deliver stamp j.out r with
    | .error fault => throw (.line fault)
    | .ok out => return { j with loggers, out }

def step (j : Journal) : Event → Except Failure Journal
  | .configure o =>
    match j.setup.configure j.out.files o with
    | (.error e, _, _) => throw e
    | (.ok (), setup, files) =>
      return ⟨setup, j.loggers.configured j.setup o, { j.out with files }⟩
  | .record name stamp r => j.record stamp { r with logger := loggerName name }

def run (j : Journal) (events : List Event) : Except Failure Journal :=
  events.foldlM step j

/-- The options of the last configuration that counts: the first one, or a later one by force. -/
def latest? (before : Option Options) : List Event → Option Options
  | [] => before
  | .configure o :: events => latest? (if before.isNone || o.force then some o else before) events
  | .record .. :: events => latest? before events

variable {start j j' : Journal} {events later : List Event} {before : Option Options} {e : Event}
variable {loggers : Loggers} {name : Text}

/-- What is true of a journal at any time, by the options of the last configuration that counts. -/
inductive Obeys : Journal → Option Options → Prop where
  | unconfigured {j : Journal} (h : j.setup.isConfigured = false)
    (isOpen : ∀ sink ∈ j.setup.sinks, sink.IsOpen j.out.files) : Obeys j none
  | configured {o : Options} {level : Threshold} {sink : Sink} {loggers : Loggers} {out : Output}
    (named : Threshold.ofText? o.level = some level) (selects : o.Selects out.files sink)
    (agrees : loggers.Agrees ⟨some level, [sink], false, true⟩) :
    Obeys ⟨⟨some level, [sink], false, true⟩, loggers, out⟩ (some o)

theorem Obeys.isOpen (h : Obeys j before) : ∀ sink ∈ j.setup.sinks, sink.IsOpen j.out.files := by
  cases h with
  | unconfigured h isOpen => exact isOpen
  | configured named selects agrees =>
    intro sink hsink
    rw [List.mem_singleton] at hsink
    rw [hsink]
    exact selects.isOpen

theorem Obeys.isConfigured (h : Obeys j before) : j.setup.isConfigured = before.isSome := by
  cases h with
  | unconfigured h isOpen => exact h
  | configured named selects agrees => rfl

theorem step_unforced (hbefore : j.setup.isConfigured = true) (known : o.sink ∈ sinkNames)
    (h : o.force = false) : j.step (.configure o) = .ok j := by
  have hconfigure : j.setup.configure j.out.files o = (.ok (), j.setup, j.out.files) := by
    simp [Setup.configure, known, hbefore, h]
  unfold step
  dsimp only
  rw [hconfigure, Loggers.configured_of_unforced hbefore h]
  rfl

theorem Obeys.configure (h : Obeys j before) (hstep : j.step (.configure o) = .ok j') :
    Obeys j' (latest? before [.configure o]) ∧ j.out.Keeps j'.out := by
  unfold step at hstep
  dsimp only at hstep
  split at hstep
  . cases hstep
  . next setup files hconfigure =>
    cases hstep
    by_cases hcounts : (before.isNone || o.force) = true
    . have hlatest : latest? before [.configure o] = some o := if_pos hcounts
      have hcounts' : j.setup.isConfigured = false ∨ o.force = true := by
        rw [h.isConfigured]
        simpa using hcounts
      rcases configure_of_counts hcounts' hconfigure with
        ⟨level, sink, rfl, hknown, hnamed, hgrows, hselects⟩
      have hdecided := Loggers.decided_configured (l := j.loggers) hknown hcounts' hnamed
      rw [hlatest]
      exact ⟨.configured hnamed hselects (Loggers.agrees_of_decided_eq_nil hdecided _), hgrows,
        List.prefix_refl _⟩
    . have hlatest : latest? before [.configure o] = before := if_neg hcounts
      have hcounts' : j.setup.isConfigured = true ∧ o.force = false := by
        rw [h.isConfigured]
        simpa [Option.isSome_iff_ne_none] using hcounts
      have hsame : (j.setup.configure j.out.files o).2 = (j.setup, j.out.files) :=
        Setup.configure_snd hcounts'.1 hcounts'.2
      rw [hconfigure] at hsame
      cases hsame
      rw [hlatest, Loggers.configured_of_unforced hcounts'.1 hcounts'.2]
      exact ⟨h, .refl _⟩

theorem keeps_setupOf (hopen : ∀ sink ∈ j.setup.sinks, sink.IsOpen j.out.files)
    (h : (loggers.setupOf j.setup r.logger).deliver stamp j.out r = .ok out) :
    j.out.Keeps out := by
  apply keeps_deliver _ h
  unfold Loggers.setupOf
  split
  . exact hopen
  . intro sink hsink
    cases hsink

theorem record_eq_ok (hopen : ∀ sink ∈ j.setup.sinks, sink.IsOpen j.out.files)
    (h : j.record stamp r = .ok j') :
    j'.setup = j.setup ∧ j'.loggers = j.loggers.meet j.setup r ∧ j.out.Keeps j'.out := by
  unfold record at h
  dsimp only at h
  split at h
  . cases h
    exact ⟨rfl, rfl, .refl _⟩
  . split at h
    . cases h
    . next hdeliver =>
      cases h
      exact ⟨rfl, rfl, keeps_setupOf hopen hdeliver⟩

theorem Obeys.record (h : Obeys j before) (hrecord : j.record stamp r = .ok j') :
    Obeys j' before ∧ j.out.Keeps j'.out := by
  rcases j' with ⟨setup, loggers, out⟩
  rcases record_eq_ok h.isOpen hrecord with ⟨rfl, rfl, hkeeps⟩
  refine ⟨?_, hkeeps⟩
  cases h with
  | unconfigured h isOpen =>
    exact .unconfigured h fun sink hsink => (isOpen sink hsink).of_grows hkeeps.files
  | configured named selects agrees =>
    exact .configured named (selects.of_grows hkeeps.files) (agrees.meet r)

theorem Obeys.step (h : Obeys j before) (hstep : j.step e = .ok j') :
    Obeys j' (latest? before [e]) ∧ j.out.Keeps j'.out := by
  cases e with
  | configure o => exact h.configure hstep
  | record name stamp r => exact h.record hstep

theorem latest?_cons (before : Option Options) (e : Event) (events : List Event) :
    latest? before (e :: events) = latest? (latest? before [e]) events := by
  cases e <;> rfl

theorem Obeys.run (h : Obeys start before) (hrun : start.run events = .ok j) :
    Obeys j (latest? before events) ∧ start.out.Keeps j.out := by
  induction events generalizing start before with
  | nil =>
    cases hrun
    exact ⟨h, .refl _⟩
  | cons e events ih =>
    unfold Journal.run at hrun
    rw [List.foldlM_cons, Except.bind_eq_ok_iff] at hrun
    rcases hrun with ⟨next, hstep, hrun⟩
    have hfirst := h.step hstep
    have hrest := ih hfirst.1 hrun
    rw [latest?_cons]
    exact ⟨hrest.1, hfirst.2.trans hrest.2⟩

/--
The log is set up as options ask. To configure it without force changes nothing. Unless two dots
follow the root in the name of its logger, a record of a lesser level leaves no trace, and any other
that has a line is written once, as one line, to the sink and nowhere else. A record whose logger is
not under the root never comes to the sink: it is shown as its bare message, if at all.
-/
structure Follows (j : Journal) (o : Options) (level : Threshold) (sink : Sink) : Prop where
  setup : j.setup = ⟨some level, [sink], false, true⟩
  named : Threshold.ofText? o.level = some level
  selects : o.Selects j.out.files sink
  unforced : ∀ o', o'.sink ∈ sinkNames → o'.force = false → j.step (.configure o') = .ok j
  withheld : ∀ name stamp (r : Record), Loggers.isDoubleDotted (loggerName name) = false →
    r.level < level.number → ∃ loggers, j.step (.record name stamp r) = .ok { j with loggers }
  written : ∀ name stamp (r : Record) line, Loggers.isDoubleDotted (loggerName name) = false →
    (level.number : Int) ≤ r.level →
    { r with logger := loggerName name }.line stamp o.service = .ok line →
    (∀ c ∈ line.toList, Text.endsLine c = false)
      ∧ ∃ loggers out, j.step (.record name stamp r) = .ok ⟨j.setup, loggers, out⟩
        ∧ j.out.Gains line sink out
  strayed : ∀ name stamp (r : Record), j.loggers.isUnderRoot (loggerName name) = false →
    ∃ loggers lines, j.step (.record name stamp r) =
        .ok ⟨j.setup, loggers, { j.out with console := j.out.console ++ lines }⟩
      ∧ ∀ line ∈ lines, (warningLevel : Int) ≤ r.level
        ∧ ∃ m, { r with logger := loggerName name }.message = .ok m
          ∧ line = String.ofList m.chars

theorem record_of_not_admits (h : j.loggers.admits j.setup r = false) (stamp : String) :
    j.record stamp r = .ok { j with loggers := j.loggers.meet j.setup r } := by
  unfold record
  dsimp only
  rw [Loggers.admits_meet, h]
  rfl

theorem record_of_deliver (h : j.loggers.admits j.setup r = true)
    (hdeliver : ((j.loggers.meet j.setup r).setupOf j.setup r.logger).deliver stamp j.out r =
      .ok out) :
    j.record stamp r = .ok ⟨j.setup, j.loggers.meet j.setup r, out⟩ := by
  unfold record
  dsimp only
  rw [Loggers.admits_meet, h, hdeliver]
  rfl

theorem record_strayed (h : j.loggers.isUnderRoot r.logger = false) (stamp : String) :
    ∃ loggers lines, j.record stamp r =
        .ok ⟨j.setup, loggers, { j.out with console := j.out.console ++ lines }⟩
      ∧ ∀ line ∈ lines, (warningLevel : Int) ≤ r.level
        ∧ ∃ m, r.message = .ok m ∧ line = String.ofList m.chars := by
  cases hadmits : j.loggers.admits j.setup r with
  | false =>
    refine ⟨j.loggers.meet j.setup r, [], ?_, by simp⟩
    rw [List.append_nil]
    exact record_of_not_admits hadmits stamp
  | true =>
    have hsetup : (j.loggers.meet j.setup r).setupOf j.setup r.logger = {} := by
      unfold Loggers.setupOf
      rw [Loggers.isUnderRoot_meet, h]
      rfl
    rcases Setup.deliver_of_sinks_eq_nil (s := {}) rfl stamp j.out r with
      ⟨lines, hdeliver, hlines⟩
    refine ⟨j.loggers.meet j.setup r, lines, ?_, hlines⟩
    apply record_of_deliver hadmits
    rw [hsetup]
    exact hdeliver

theorem Obeys.follows (h : Obeys j (some o)) : ∃ level sink, j.Follows o level sink := by
  cases h with
  | @configured _ level sink loggers out named selects agrees =>
    refine ⟨level, sink, rfl, named, selects, ?_, ?_, ?_, ?_⟩
    . intro o' known hforce
      exact step_unforced rfl known hforce
    . intro name stamp r hdots hlevel
      have hadmits : Setup.admits ⟨some level, [sink], false, true⟩
          { r with logger := loggerName name } = false := decide_eq_false (Int.not_le.mpr hlevel)
      rw [← agrees.admits_eq rfl hdots] at hadmits
      exact ⟨_, record_of_not_admits hadmits stamp⟩
    . intro name stamp r line hdots hlevel hline
      have hadmits : Setup.admits ⟨some level, [sink], false, true⟩
          { r with logger := loggerName name } = true := decide_eq_true hlevel
      rw [← agrees.admits_eq rfl hdots] at hadmits
      rcases exists_gains selects hline with ⟨out', hwrite, hgains⟩
      have hplain := Record.isPlain_line hline
      refine ⟨hplain.not_endsLine, _, out', record_of_deliver hadmits ?_, hgains⟩
      rw [Loggers.setupOf_loggerName hdots, deliver_of_sinks_eq_singleton rfl]
      exact hwrite
    . intro name stamp r hstray
      exact record_strayed hstray stamp

/--
After any events that succeed, the log follows the options of the last configuration that counts, if
there has been one. What has been written so far is kept, through all later events too.
-/
theorem run_delivers_once (hfirst : start.setup.isConfigured = false)
    (hopen : ∀ sink ∈ start.setup.sinks, sink.IsOpen start.out.files)
    (hrun : start.run events = .ok j) :
    (∀ o, latest? none events = some o → ∃ level sink, j.Follows o level sink)
      ∧ start.out.Keeps j.out
      ∧ ∀ later last, j.run later = .ok last → j.out.Keeps last.out := by
  have hstart : Obeys start none := .unconfigured hfirst hopen
  rcases hstart.run hrun with ⟨hobeys, hkeeps⟩
  refine ⟨?_, hkeeps, ?_⟩
  . intro o hlatest
    rw [hlatest] at hobeys
    exact hobeys.follows
  . intro later last hlater
    exact (hobeys.run hlater).2

def exampleEvents : List Event :=
  [.configure {}, .record "config" "T" { logger := "", level := infoLevel, template := "one" },
    .configure { level := "warn", sink := "file", service := "node", force := true },
    .record "config" "T" { logger := "", level := errorLevel, template := "two" },
    .configure { level := "debug", service := "other" },
    .record "config" "T" { logger := "", level := infoLevel, template := "three" }]

def fresh : Journal :=
  { out := { files := .empty } }

def exampleJournal : Journal :=
  (fresh.run exampleEvents).toOption.getD fresh

theorem run_delivers_once_example :
    fresh.run exampleEvents = .ok exampleJournal
      ∧ exampleJournal.out.console.length = 1
      ∧ ∃ level sink, exampleJournal.Follows
        { level := "warn", sink := "file", service := "node", force := true } level sink := by
  have hrun : fresh.run exampleEvents = .ok exampleJournal := by
    rfl
  have hopen : ∀ sink ∈ fresh.setup.sinks, sink.IsOpen fresh.out.files := by
    intro sink hsink
    cases hsink
  exact ⟨hrun, by decide +kernel, (run_delivers_once rfl hopen hrun).1 _ rfl⟩

def strayRecord : Record :=
  { logger := loggerName ".config", level := infoLevel, template := "one" }

/-- The way up from a name that begins with a dot leads past the root, and the record is lost. -/
theorem not_run_delivers_once_dotted :
    (strayRecord.line "T" rootName).toOption.isSome = true
      ∧ (fresh.run [.configure {}, .record ".config" "T" strayRecord]).toOption.map
        (·.out.console) = some [] := by
  decide +kernel

end Journal
end Log
end NodeSettings
