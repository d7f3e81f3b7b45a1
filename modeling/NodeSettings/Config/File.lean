import NodeSettings.Config.Document
import NodeSettings.Failure
import NodeSettings.Yaml.Read
import NodeSettings.Yaml.Write

/-!
This module contains the reading and the writing of configuration files. Every operation gives the
records it logs besides its result, and one that writes gives the files after it.
-/

namespace NodeSettings
namespace ConfigFile

def loggerName : String := "betanet.config"

def record (level : Nat) (message action : String) (outcome : List (String × Value)) (p : Path)
    (payload : List (String × Value)) : Log.Record where
  logger := loggerName
  level := level
  template := message
  extras :=
    [("event_action", .text action)] ++ outcome ++ [("file_path", .text p.text)]
      ++ (if payload.isEmpty then []
        else [("payload", .map (payload.map fun (k, v) => (.text k, v)))])

def outcome (name : String) : List (String × Value) :=
  [("event_outcome", .text name)]

def ignoredRecord (p : Path) (key : Text) : Log.Record :=
  record Log.debugLevel "ignoring unknown config key" "config_key_ignored" [] p
    [("key", .text key)]

def invalidRecord (p : Path) (v : Violation) : Log.Record :=
  record Log.errorLevel "invalid configuration" "config_load" (outcome "failure") p
    [("section", match v.sect with
      | none => .null
      | some x => .text x.name),
      ("rule", .text v.rule)]

def loadedRecord (p : Path) (c : Config) : Log.Record :=
  record Log.infoLevel "configuration loaded" "config_load" (outcome "success") p
    [("environment", c.get .environment)]

def savedRecord (p : Path) : Log.Record :=
  record Log.infoLevel "configuration saved" "config_save" (outcome "success") p []

def parse (p : Path) (bytes : ByteArray) : Except Failure Value :=
  match Yaml.read bytes with
  | .ok document => return document
  | .error .malformed => throw (.unparsable p)
  | .error fault => throw (.badScalar fault)

def readDocument (fs : FileSystem) (p : Path) : Except Failure Value :=
  match fs.read p with
  | .error (.refused fault) => throw (.file p.text (.refused fault))
  | .error fault => throw (.unreadable p fault)
  | .ok bytes => parse p bytes

def ofDocument (p : Path) (document : Value) : Except Failure Config × List Log.Record :=
  let outcome := Config.default.overlay document
  match outcome.fault with
  | some fault => (.error (.overlay fault), [])
  | none =>
    let ignored := outcome.ignored.map (ignoredRecord p)
    match outcome.config.validate with
    | .ok () => (.ok outcome.config, ignored ++ [loadedRecord p outcome.config])
    | .error (.violation v) =>
      (.error (.validation (.violation v)), ignored ++ [invalidRecord p v])
    | .error fault => (.error (.validation fault), ignored)

def load (fs : FileSystem) (p : Path) : Except Failure Config × List Log.Record :=
  match readDocument fs p with
  | .error e => (.error e, [])
  | .ok document => ofDocument p document

structure Written where
  result : Except Failure Path
  records : List Log.Record
  files : FileSystem

def render (p : Path) (document : Value) : Except Failure String :=
  match Yaml.write document with
  | .ok s => return s
  | .error .unrepresentable => throw (.unserializable p)
  | .error .tooManyDigits => throw (.unshowable .tooManyDigits)

/-- The files after a document is written to a path. Nothing is written unless all of it can be. -/
def saveDocument (fs : FileSystem) (document : Value) (p : Path) : Written :=
  match render p document with
  | .error e => ⟨.error e, [], fs⟩
  | .ok s =>
    match fs.write p s.toUTF8 with
    | .error (.refused fault) => ⟨.error (.file p.text (.refused fault)), [], fs⟩
    | .error fault => ⟨.error (.unwritable p fault), [], fs⟩
    | .ok fs => ⟨.ok p, [savedRecord p], fs⟩

/-- The files after what has been gathered is written, if that has not failed already. -/
def saveGathered (fs : FileSystem) (document : Except Failure Value) (p : Path) : Written :=
  match document with
  | .error e => ⟨.error e, [], fs⟩
  | .ok document => saveDocument fs document p

def save (fs : FileSystem) (c : Config) (p : Path) : Written :=
  saveDocument fs c.document p

def isThere (fs : FileSystem) (p : Path) : Except Failure Bool :=
  (fs.exists? p).mapError (.file p.text)

/--
The files after the defaults are written to a path, with the directories that lead to it. What is
there already is replaced only by force.
-/
def create (fs : FileSystem) (p : Path) (force : Bool) : Written :=
  match isThere fs p with
  | .error e => ⟨.error e, [], fs⟩
  | .ok there =>
    if there && !force then ⟨.error (.alreadyThere p), [], fs⟩
    else
      match fs.makeDirectories p.parent with
      | (.error (fault, q), fs) => ⟨.error (.file q.text fault), [], fs⟩
      | (.ok (), fs) => save fs .default p

end ConfigFile
end NodeSettings
