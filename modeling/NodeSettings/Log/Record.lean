import NodeSettings.Calendar
import NodeSettings.Log.Json
import NodeSettings.Log.Message
import NodeSettings.Log.Prune
import NodeSettings.Text.Case

/-!
This module contains log records and the line of JSON that a record is written as.
-/

namespace NodeSettings
namespace Log

def rootName : String := "betanet"

/-- The name of a logger under the root; a name that lies there already is kept. -/
def loggerName (name : Text) : Text :=
  let under : Text := rootName ++ "."
  if name = (rootName : Text) || under.points.isPrefixOf name.points then name
  else under ++ name

structure ErrorNote where
  kind : String
  text : Text
deriving DecidableEq

def ErrorNote.ofText (kind : String) (text : Text) : ErrorNote :=
  ⟨kind, if kind = "KeyError" then Text.quoted text else text⟩

def ErrorNote.message (e : ErrorNote) : Text :=
  if e.text.isEmpty then e.kind else (e.kind ++ ": " : String) ++ e.text

structure Record where
  logger : Text
  level : Int
  template : Text
  arguments : List Value := []
  /-- What else is known, by name; some of the names stand for other parts of the record. -/
  extras : List (String × Value) := []
  error : Option ErrorNote := none

def debugLevel : Nat := 10
def infoLevel : Nat := 20
def warningLevel : Nat := 30
def errorLevel : Nat := 40
def criticalLevel : Nat := 50

def levelName (n : Int) : String :=
  if n = 0 then "NOTSET"
  else if n = debugLevel then "DEBUG"
  else if n = infoLevel then "INFO"
  else if n = warningLevel then "WARNING"
  else if n = errorLevel then "ERROR"
  else if n = criticalLevel then "CRITICAL"
  else "Level " ++ Text.integer n

/-- What is known by a name, the last entry winning. -/
def Record.extra? (r : Record) (name : String) : Option Value :=
  (r.extras.reverse.find? (·.1 == name)).map (·.2)

inductive LineFault where
  | message (fault : MessageFault)
  | encoding (fault : Json.EncodeFault)
  | badYear (year : Int)
  | hugeYear
  | hugeTime
  | beyondFloats
  | undefinedTime
  | notATime (typeName : String)
  | notALevel (typeName : String)
  | notAnError (typeName : String)
  | unshowable (fault : LiteralFault)
deriving DecidableEq

def Record.arguments? (r : Record) : Option Arguments :=
  match r.extra? "args" with
  | some v => if v.isTruthy then some (.ofValue v) else none
  | none => if r.arguments.isEmpty then none else some (.ofValues r.arguments)

def Record.message (r : Record) : Except LineFault Text := do
  let template ← match r.extra? "msg" with
    | some v => v.plain.mapError .unshowable
    | none => pure r.template
  (Log.message template r.arguments?).mapError .message

def Record.levelLabel (r : Record) : Except LineFault Text :=
  match r.extra? "levelname" with
  | none => return (levelName r.level : Text).lower
  | some (.text t) => return t.lower
  | some v => throw (.notALevel v.typeName)

def Record.errorText? (r : Record) : Except LineFault (Option Text) :=
  match r.extra? "exc_info" with
  | none => return r.error.map (·.message)
  | some v => if v.isTruthy then throw (.notAnError v.typeName) else return none

def Record.fields (r : Record) (stamp : String) (service : Text) :
    Except LineFault (List (Value × Value)) := do
  let group (name : String) (members : List (String × Value)) : Value × Value :=
    (.text name, .map (members.map fun (k, v) => (.text k, v)))
  let known (name : String) (usual : Value) : Value := (r.extra? name).getD usual
  let message ← r.message
  let level ← r.levelLabel
  let fields :=
    [(.text "@timestamp", .text stamp),
      (.text "message", .text message),
      group "log" [("level", .text level), ("logger", known "name" (.text r.logger))],
      group "service" [("name", known "service_name" (.text service))],
      group "event" [("kind", .text "event"),
        ("category", known "event_category" (.text "configuration")),
        ("action", known "event_action" .null), ("outcome", known "event_outcome" .null)],
      group "file" [("path", known "file_path" .null)],
      group "betanet" [("payload", known "payload" .null)]]
  match ← r.errorText? with
  | none => return fields
  | some text => return fields ++ [group "error" [("message", .text text)]]

def Record.line (r : Record) (stamp : String) (service : Text) : Except LineFault String := do
  let tree := (Value.map (← r.fields stamp service)).prune?.getD (.map [])
  return String.ofList (← (Json.encode tree).mapError .encoding)

/--
A number of seconds as whole microseconds. The fraction is cut off first, so that it is rounded to
microseconds by itself.
-/
def clockMicros (seconds : Binary64) : Int :=
  let units := seconds.units?.getD 0
  let whole := Int.tdiv units Binary64.unitsPerOne
  let rest := Int.tmod units Binary64.unitsPerOne
  let fraction := Binary64.ofRatio (rest < 0) rest.natAbs Binary64.unitsPerOne
  let micros := fraction.mul (.ofInt 1000000)
  whole * 1000000 + micros.round?.getD 0

def stampOfMicros (micros : Int) : Except LineFault String :=
  let seconds := Int.fdiv micros 1000000
  let year := yearOfDay (Int.fdiv seconds 86400 + 719468)
  let m := Moment.ofMicros micros
  if seconds < -0x8000000000000000 || 0x8000000000000000 < seconds then throw .hugeTime
  else if year - 1900 < -0x80000000 || 0x7FFFFFFF < year - 1900 then throw .hugeYear
  else if year < 1 || 9999 < year then throw (.badYear year)
  else
    return m.date.text ++ "T" ++ Text.padded 2 m.hour ++ ":" ++ Text.padded 2 m.minute ++ ":"
      ++ Text.padded 2 m.second ++ "." ++ Text.padded 6 m.micros ++ "+00:00"

def stampOfValue (v : Value) : Except LineFault String :=
  match v.float?, v.asInteger? with
  | some .nan, _ => throw .undefinedTime
  | some (.infinity _), _ => throw .hugeTime
  | some x, _ => stampOfMicros (clockMicros x)
  | none, some n => stampOfMicros (n * 1000000)
  | none, none => throw (.notATime v.typeName)

def Record.stamp (r : Record) (created : Int) : Except LineFault String :=
  match Binary64.ofRatio (created < 0) created.natAbs 1000000 with
  | .infinity _ => throw .beyondFloats
  | seconds => stampOfValue ((r.extra? "created").getD (.float seconds))

def Record.lineAt (r : Record) (created : Int) (service : Text) : Except LineFault String := do
  r.line (← r.stamp created) service

end Log
end NodeSettings
