import NodeSettings.Failure
import NodeSettings.Log.Level

/-!
This module contains the setup of the log: which records are written, and to which sink. A setup
changes when it is configured for the first time or by force.
-/

namespace NodeSettings
namespace Log

inductive Sink where
  | recorder
  | console (service : String)
  | file (service : String) (place : Location)
deriving DecidableEq

structure Setup where
  level : Option Threshold := none
  sinks : List Sink := []
  propagates : Bool := true
  isConfigured : Bool := false
deriving DecidableEq

structure Options where
  level : String := "info"
  sink : String := "stdout"
  path : Option Text := none
  service : String := rootName
  force : Bool := false

def sinkNames : List String :=
  ["stdout", "file"]

def defaultPath : String := "logs/betanet.log"

def Options.filePath (o : Options) : Path :=
  .ofText ((o.path.filter fun t => !t.isEmpty).getD defaultPath)

def openFile (fs : FileSystem) (p : Path) : Except Failure Location × FileSystem :=
  match fs.makeDirectories p.parent with
  | (.error (fault, q), fs) => (.error (.file q.text fault), fs)
  | (.ok (), fs) =>
    match fs.openToAppend p with
    | .error fault => (.error (.file p.text fault), fs)
    | .ok (place, fs) => (.ok place, fs)

def openSink (fs : FileSystem) (o : Options) : Except Failure Sink × FileSystem :=
  if o.sink = "file" then
    match openFile fs o.filePath with
    | (.error e, fs) => (.error e, fs)
    | (.ok place, fs) => (.ok (.file o.service place), fs)
  else (.ok (.console o.service), fs)

namespace Setup

def recording : Setup :=
  { level := some .debug, sinks := [.recorder] }

/--
The setup after it is configured, and the files. The level is set and the old sinks are given up
before the new sink is made.
-/
def configure (s : Setup) (fs : FileSystem) (o : Options) :
    Except Failure Unit × Setup × FileSystem :=
  if !sinkNames.contains o.sink then (.error (.badSink o.sink), s, fs)
  else if s.isConfigured && !o.force then (.ok (), s, fs)
  else
    match Threshold.ofText? o.level with
    | none => (.error (.badLevel o.level), s, fs)
    | some level =>
      let s := { s with level := some level, sinks := [] }
      match openSink fs o with
      | (.error e, fs) => (.error e, s, fs)
      | (.ok sink, fs) =>
        (.ok (), { s with sinks := [sink], propagates := false, isConfigured := true }, fs)

/-- The level that is set when the setup is configured, whether or not its sink can be made. -/
def newLevel? (s : Setup) (o : Options) : Option Threshold :=
  if !sinkNames.contains o.sink || (s.isConfigured && !o.force) then none
  else Threshold.ofText? o.level

def leastLevel (s : Setup) : Nat :=
  (s.level.map Threshold.number).getD warningLevel

def admits (s : Setup) (r : Record) : Bool :=
  s.leastLevel ≤ r.level

end Setup

structure Output where
  records : List Record := []
  console : List String := []
  files : FileSystem

namespace Output

/--
The output after a record goes to a sink. A record that has no line is left out, but one without a
message cannot be kept.
-/
def write (out : Output) (stamp : String) (r : Record) : Sink → Except LineFault Output
  | .recorder => do
    let _ ← r.message
    return { out with records := out.records ++ [r] }
  | .console service =>
    match r.line stamp service with
    | .error _ => return out
    | .ok line => return { out with console := out.console ++ [line] }
  | .file service place =>
    match r.line stamp service with
    | .error _ => return out
    | .ok line => return { out with files := out.files.append place (line ++ "\n").toUTF8 }

end Output

namespace Setup

/--
The output after a record has come to the sinks. Without a sink the message alone is shown if it is
at least a warning.
-/
def deliver (s : Setup) (stamp : String) (out : Output) (r : Record) : Except LineFault Output :=
  if s.sinks.isEmpty then
    match r.message with
    | .ok message =>
      if warningLevel ≤ r.level then
        return { out with console := out.console ++ [String.ofList message.chars] }
      else return out
    | .error _ => return out
  else s.sinks.foldlM (fun out sink => out.write stamp r sink) out

def emit (s : Setup) (stamp : String) (out : Output) (r : Record) : Except LineFault Output :=
  if !s.admits r then return out else s.deliver stamp out r

def emitAll (s : Setup) (stamp : String) (out : Output) (records : List Record) :
    Except LineFault Output :=
  records.foldlM (s.emit stamp) out

end Setup
end Log
end NodeSettings
