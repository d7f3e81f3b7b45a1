import NodeSettings.Session.Basic
import NodeSettings.Text.Lines

/-!
This module contains the steps of a session and what each of them answers.
-/

namespace NodeSettings

inductive Shown where
  | value (v : Value)
  | view (literal : String)
  | fields (fields : List (String × Shown))

inductive Answer where
  | done
  | changed (changes : Changes)
  | ignored (keys : List Text) (changes : Changes)
  | equal (b : Bool)
  | valid
  | value (v : Shown)
  | text (s : String)
  | isThere (b : Bool)
  | saved (p : Path)
  | described (literal : String)
  | lines (ls : List String)
  /-- The failure, with the changes of a configuration where these count all the same. -/
  | failed (f : Failure) (changes : Option Changes)

/-- A step of a session. Most name what they work on, and what their result is kept under. -/
inductive Step where
  | new (dest : String)
  | copy (on dest : String)
  | state (on : String)
  | assign (on : String) (names : List String) (name : String) (v : Value)
  | appendPeer (on : String) (v : Value)
  | equal (left right : String)
  | validate (on : String)
  | overlay (on : String) (document : Value)
  | parse (dest : String) (document : Value)
  | environment (dest : String) (env : Environment) (leader : String)
  /-- Takes the variables from those of the process, which are replaced first. -/
  | processEnvironment (dest : String) (env : Environment) (leader : String)
  | getKey (on : String) (kind : Kind) (name : String) (fallback : Value)
  | readKey (on : String) (kind : Kind) (name : String) (fallback : Value)
  | setKey (on : String) (name : String) (v : Value)
  | write (path : Text) (content : ByteArray)
  | read (path : Text)
  | makeDirectory (path : Text)
  | isThere (path : Text)
  | load (path : Text) (dest : String)
  | save (on : String) (path : Text)
  | create (path : Text) (force : Bool)
  | view (on dest : String)
  | get (on : String) (names : List String)
  | put (on : String) (names : List String) (name : String) (v : Value)
  | delete (on : String) (names : List String) (name : String)
  | sect (on name dest : String)
  | hash (on : String)
  | describe (on : String)
  | handle (dest : String) (path : Option Text)
  | handleView (on dest : String)
  | snapshot (on dest : String)
  | reload (on dest : String)
  | configure (options : Log.Options)
  | log (logger : String) (level : Nat) (template : String) (arguments : List Value)
      (extras : List (String × Value))
  | readLog (path : Text)

namespace Session

abbrev Outcome := Answer × Session

def fail (s : Session) (f : Failure) : Outcome :=
  (.failed f none, s)

def changes (s : Session) (number : Nat) : Changes :=
  (s.config number).changed

def tell (s : Session) (number : Nat) : Outcome :=
  (.changed (s.changes number), s)

def failTelling (s : Session) (number : Nat) (f : Failure) : Outcome :=
  (.failed f (some (s.changes number)), s)

def keepTelling (s : Session) (dest : String) (c : Aggregate) : Outcome :=
  (s.keepConfig dest c).tell s.nextNumber

def keepCopy (s : Session) (dest : String) (c : Aggregate) : Outcome :=
  s.keepTelling dest (c.copied (s.nextNumber + 1))

def copy (s : Session) (on dest : String) : Outcome :=
  match s.whole on "copy" with
  | .error e => s.fail e
  | .ok (_, c) => s.keepCopy dest c

def state (s : Session) (on : String) : Outcome :=
  match s.whole on "environment" with
  | .error e => s.fail e
  | .ok (number, _) => s.tell number

def methodRefusal (name : String) : Failure :=
  if name = Slot.ownerName then .fixed else .noAttribute "method" name

/-- The session after an assignment to an attribute of what has been reached. -/
def assignTo (s : Session) (owner : Slot) (name : String) (v : Value) : Except Failure Session :=
  match owner with
  | .config number reach => do
    let field ← reach.assignable name
    return s.setConfig number ((s.config number).assign v field)
  | .handle _ views =>
    if views != 0 then throw (.cannotSet name)
    else if name = Handle.viewName then throw (.property owner.typeName name "setter")
    else return s
  | .value w views => throw (if views != 0 then .cannotSet name else w.refusal name)
  | .method _ _ views => throw (if views != 0 then .cannotSet name else methodRefusal name)

/-- The session after a deletion of an attribute of what has been reached. -/
def deleteFrom (s : Session) (owner : Slot) (name : String) : Except Failure Session :=
  match owner with
  | .config number reach => do
    let field ← reach.deletable (s.config number) name
    return s.setConfig number ((s.config number).remove field)
  | .handle _ views =>
    throw (if views != 0 then .cannotDelete name
      else if name = Handle.viewName then .property owner.typeName name "deleter"
      else owner.lacks name)
  | .value w views => throw (if views != 0 then .cannotDelete name else w.refusal name)
  | .method _ _ views => throw (if views != 0 then .cannotDelete name else methodRefusal name)

def assign (s : Session) (on : String) (names : List String) (name : String) (v : Value) :
    Outcome :=
  match s.slot on with
  | .error e => s.fail e
  | .ok slot =>
    match slot, (s.follow slot names).bind fun owner => s.assignTo owner name v with
    | .config number _, .error e => s.failTelling number e
    | .config number _, .ok s => s.tell number
    | _, .error e => s.fail e
    | _, .ok s => (.done, s)

def appended (v : Value) : Value → Except Failure Value
  | .list items => return .list (items ++ [v])
  | other => throw (.noAttribute other.typeName "append")

def appendPeer (s : Session) (on : String) (v : Value) : Outcome :=
  match s.target on Section.network.name with
  | .error e => s.fail e
  | .ok (number, reach) =>
    if reach.part ≠ none then
      s.fail (.noAttribute reach.part.typeName Section.network.name)
    else
      match ((reach.seen (s.config number)).read .bootstrapPeers).bind (appended v) with
      | .error e => s.fail e
      | .ok peers =>
        (s.setConfig number ((s.config number).set .bootstrapPeers peers)).tell number

/-- Two configurations hold the same; one that is compared with itself is only looked through. -/
def equalConfigs (s : Session) (p : Part) (m n : Nat) : Except Failure Bool :=
  if m = n then do
    (s.config m).needAll p
    return true
  else (s.config m).equalPart (s.config n) p

/--
What is kept under two names is equal. Views do not count, but what is behind more of them is looked
at first.
-/
def equalSlots (s : Session) : Slot → Slot → Except Failure Bool
  | .config m p, .config n q =>
    if p.part ≠ q.part then return false
    else if p.views < q.views then s.equalConfigs p.part n m
    else s.equalConfigs p.part m n
  | .handle m _, .handle n _ => return m == n
  | .value v _, .value w _ => return v.equalAlone w
  | .method o name _, .method p other _ => return o == p && name == other
  | _, _ => return false

def equal (s : Session) (left right : String) : Outcome :=
  match s.slot left, s.slot right with
  | .error e, _ => s.fail e
  | _, .error e => s.fail e
  | .ok x, .ok y =>
    match s.equalSlots x y with
    | .error e => s.fail e
    | .ok b => (.equal b, s)

def validate (s : Session) (on : String) : Outcome :=
  match s.whole on "validate" with
  | .error e => s.fail e
  | .ok (_, c) =>
    match c.validate with
    | .error e => s.fail e
    | .ok () => (.valid, s)

/-- The answer to an overlay that comes to its end, or to what obstructs it. -/
def overlaid (s : Session) (number : Nat) (ignored : List Text) (obstacle : Option Failure) :
    Outcome :=
  match obstacle with
  | some e => s.failTelling number e
  | none => (.ignored ignored (s.changes number), s)

def overlay (s : Session) (on : String) (document : Value) : Outcome :=
  match s.target on "environment" with
  | .error e => s.fail e
  | .ok (number, reach) =>
    let (steps, obstacle) := reach.steps (s.config number) document
    if reach.isView then
      match Reach.refuseAssignments steps with
      | .error e => s.failTelling number e
      | .ok keys => s.overlaid number keys obstacle
    else
      let outcome := Overlay.run (s.config number).toConfig steps
      let s := s.setConfig number ((s.config number).overlaid steps)
      match outcome.fault with
      | some fault => s.failTelling number (.overlay fault)
      | none => s.overlaid number outcome.ignored obstacle

def parse (s : Session) (dest : String) (document : Value) : Outcome :=
  match Config.ofDocument document with
  | .error (.overlay fault) => s.fail (.overlay fault)
  | .error (.validation fault) => s.fail (.validation fault)
  | .ok c => s.keepTelling dest c

def environment (s : Session) (dest : String) (env : Environment) (leader : String) : Outcome :=
  let (result, records) := Config.ofEnvironment env leader
  let s := s.emit records
  match result with
  | .error count => s.fail (.longNumber count)
  | .ok c => s.keepTelling dest c

/-- The configuration that an environment describes after it has been made that of the process. -/
def processEnvironment (s : Session) (dest : String) (env : Environment) (leader : String) :
    Outcome :=
  match env.fault? with
  | some fault => s.fail (.badVariable fault)
  | none => s.environment dest env leader

def getKey (s : Session) (on : String) (kind : Kind) (name : String) (fallback : Value) :
    Outcome :=
  match s.whole on ("get_" ++ kind.name) with
  | .error e => s.fail e
  | .ok (_, c) =>
    match c.getKey kind name fallback with
    | .error e => s.fail e
    | .ok v => (.value (.value v), s)

def keyPath (k : Key) : String :=
  (k.setting.owner.map Section.name).getD k.name

def readKey (s : Session) (on : String) (kind : Kind) (name : String) (fallback : Value) :
    Outcome :=
  match s.slot on with
  | .error e => s.fail e
  | .ok (.config number reach) =>
    match reach.readKey (s.config number) kind name fallback with
    | .error e => s.fail e
    | .ok v => (.value (.value v), s)
  | .ok slot =>
    match Key.lookup? name kind with
    | none => (.value (.value fallback), s)
    | some k => s.fail (slot.lacks (keyPath k))

def setKey (s : Session) (on name : String) (v : Value) : Outcome :=
  match s.slot on with
  | .error e => s.fail e
  | .ok (.config number reach) =>
    match reach.keyTarget (s.config number) name v with
    | .error e => s.failTelling number e
    | .ok setting => (s.setConfig number ((s.config number).set setting v)).tell number
  | .ok slot =>
    match Key.accepting name v with
    | .error e => s.fail (.key e)
    | .ok k => s.fail (slot.lacks (keyPath k))

def write (s : Session) (path : Text) (content : ByteArray) : Outcome :=
  match s.files.writeWritten ⟨path⟩ content with
  | .error fault => s.fail (.file path fault)
  | .ok files => (.done, { s with files })

def fileText (s : Session) (path : Text) : Except Failure String :=
  match s.files.readWritten ⟨path⟩ with
  | .error fault => throw (.file path fault)
  | .ok content =>
    match Text.decodeUtf8 content with
    | .error fault => throw (.notUtf8 fault)
    | .ok text => return String.ofList (Text.unifyBreaks text.toList)

def read (s : Session) (path : Text) : Outcome :=
  match s.fileText path with
  | .error e => s.fail e
  | .ok text => (.text text, s)

def makeDirectory (s : Session) (path : Text) : Outcome :=
  match s.files.makeNewDirectories ⟨path⟩ with
  | (.error (fault, p), files) => (.failed (.file p.text fault) none, { s with files })
  | (.ok (), files) => (.done, { s with files })

def isThere (s : Session) (path : Text) : Outcome :=
  (.isThere (s.files.existsWritten ⟨path⟩), s)

def load (s : Session) (path : Text) (dest : String) : Outcome :=
  let (result, records) := ConfigFile.load s.files (.ofText path)
  let s := s.emit records
  match result with
  | .error e => s.fail e
  | .ok c => s.keepTelling dest c

def written (s : Session) (w : ConfigFile.Written) : Outcome :=
  let s := { s with files := w.files }.emit w.records
  match w.result with
  | .error e => s.fail e
  | .ok p => (.saved p, s)

def save (s : Session) (on : String) (path : Text) : Outcome :=
  let p := Path.ofText path
  match s.slot on with
  | .error e => s.fail e
  | .ok (.config number reach) =>
    s.written (ConfigFile.saveGathered s.files (reach.document (s.config number)) p)
  | .ok (.value v 0) => s.written (ConfigFile.saveDocument s.files v.written p)
  | .ok _ => s.fail (.unserializable p)

def create (s : Session) (path : Text) (force : Bool) : Outcome :=
  s.written (ConfigFile.create s.files (.ofText path) force)

def view (s : Session) (on dest : String) : Outcome :=
  match s.slot on with
  | .error e => s.fail e
  | .ok slot => (.done, s.keep dest slot.viewed)

def ownerLiteral (s : Session) : Owner → Except Failure String
  | .config number => (s.config number).literal none
  | .handle _ => return Slot.handleTypeName

def literal (s : Session) : Slot → Except Failure String
  | .config number reach => reach.literal (s.config number)
  | .handle _ views => return Reach.behindViews views Slot.handleTypeName
  | .value v views => return Reach.behindViews views (← v.literal.mapError .unshowable)
  | .method owner name views => do
    return Reach.behindViews views
      ("<bound method " ++ (owner.slot 0).typeName ++ "." ++ name ++ " of "
        ++ (← s.ownerLiteral owner) ++ ">")

def settingFields (c : Config) (settings : List Setting) : List (String × Shown) :=
  settings.map fun setting => (setting.name, .value (c.get setting))

def sectionField (a : Aggregate) (x : Section) : String × Shown :=
  match a.inPlace x with
  | some v => (x.name, .value v)
  | none => (x.name, .fields (settingFields a.toConfig x.settings))

def partFields (a : Aggregate) : Part → List (String × Shown)
  | some x => settingFields a.toConfig x.settings
  | none => settingFields a.toConfig Setting.general ++ Section.all.map (sectionField a)

def display (s : Session) (slot : Slot) : Except Failure Shown :=
  match slot with
  | .value v 0 => return .value v
  | .config number ⟨part, 0⟩ => do
    (s.config number).needDocument part
    return .fields (partFields (s.config number) part)
  | slot => (s.literal slot).map .view

def get (s : Session) (on : String) (names : List String) : Outcome :=
  match (s.reached on names).bind s.display with
  | .error e => s.fail e
  | .ok shown => (.value shown, s)

def put (s : Session) (on : String) (names : List String) (name : String) (v : Value) : Outcome :=
  match (s.reached on names).bind fun owner => s.assignTo owner name v with
  | .error e => s.fail e
  | .ok s => (.done, s)

def delete (s : Session) (on : String) (names : List String) (name : String) : Outcome :=
  match (s.reached on names).bind fun owner => s.deleteFrom owner name with
  | .error e => s.fail e
  | .ok s => (.done, s)

def sect (s : Session) (on name dest : String) : Outcome :=
  match s.reached on [name] with
  | .error e => s.fail e
  | .ok slot => (.done, s.keep dest slot)

/-- What is kept is hashed, if it can be: configurations and views cannot. -/
def checkHash : Slot → Except Failure Unit
  | .config _ reach => throw (.unhashable reach.typeName)
  | .handle _ views => if views != 0 then throw (.unhashable Reach.viewTypeName) else return ()
  | .value v views =>
    if views != 0 then throw (.unhashable Reach.viewTypeName)
    else
      match v.unhashable? with
      | some typeName => throw (.unhashable typeName)
      | none => return ()
  | .method _ _ views =>
    if views != 0 then throw (.unhashable Reach.viewTypeName) else return ()

def hash (s : Session) (on : String) : Outcome :=
  match (s.slot on).bind checkHash with
  | .error e => s.fail e
  | .ok () => (.done, s)

def describe (s : Session) (on : String) : Outcome :=
  match s.slot on with
  | .error e => s.fail e
  | .ok slot =>
    match s.literal slot with
    | .error e => s.fail e
    | .ok literal => (.described literal, s)

def loadFrom (s : Session) : Option Path → Except Failure Config × List Log.Record
  | none => (.ok .default, [])
  | some p => ConfigFile.load s.files p

def handle (s : Session) (dest : String) (path : Option Text) : Outcome :=
  let source := path.map Path.ofText
  let (result, records) := s.loadFrom source
  let s := s.emit records
  match result with
  | .error e => s.fail e
  | .ok c =>
    let h : Handle := ⟨source, s.nextNumber⟩
    let s := { s.addConfig c with handles := s.handles ++ [h] }
    (.done, s.keep dest (.handle (s.handles.length - 1) 0))

def handleView (s : Session) (on dest : String) : Outcome :=
  match s.handleOf on Handle.viewName with
  | .error e => s.fail e
  | .ok (_, h) => (s.keep dest (.config h.active ⟨none, 1⟩)).tell h.active

def snapshot (s : Session) (on dest : String) : Outcome :=
  match s.handleOf on "snapshot" with
  | .error e => s.fail e
  | .ok (_, h) => s.keepCopy dest (s.config h.active)

def handleLoggerName : String := ConfigFile.loggerName ++ ".handle"

def reloadRecord (level : Nat) (message outcome : String) (e : Option Failure) : Log.Record where
  logger := handleLoggerName
  level := level
  template := message
  extras := [("event_action", .text "config_reload")] ++ ConfigFile.outcome outcome
  error := e.map Failure.note

def keptRecord (e : Failure) : Log.Record :=
  reloadRecord Log.warningLevel "config reload failed; keeping active configuration" "failure"
    (some e)

def reloadedRecord : Log.Record :=
  reloadRecord Log.infoLevel "configuration reloaded" "success" none

/-- A handle is loaded anew. Its active configuration stays as it is if that fails. -/
def reload (s : Session) (on dest : String) : Outcome :=
  match s.handleOf on "reload" with
  | .error e => s.fail e
  | .ok (number, h) =>
    let (result, records) := s.loadFrom h.source
    let s := s.emit records
    match result with
    | .error e => (s.emit [keptRecord e]).fail e
    | .ok c =>
      let fresh := s.nextNumber
      let s := { s.addConfig c with handles := s.handles.set number { h with active := fresh } }
      let s := s.emit [reloadedRecord]
      (s.keep dest (.config fresh ⟨none, 1⟩)).tell fresh

def configure (s : Session) (o : Log.Options) : Outcome :=
  let (result, log, files) := s.log.configure s.files o
  let s := { s with log, files, loggers := s.loggers.configured s.log o }
  match result with
  | .error e => s.fail e
  | .ok () => (.done, s)

def reservedNames : List String :=
  ["name", "msg", "args", "levelname", "levelno", "pathname", "filename", "module", "exc_info",
    "exc_text", "stack_info", "lineno", "funcName", "created", "msecs", "relativeCreated",
    "thread", "threadName", "processName", "process", "message", "asctime"]

def logRecord (s : Session) (r : Log.Record) : Outcome :=
  let s := { s with loggers := s.loggers.meet s.log r }
  if !s.loggers.admits s.log r then (.done, s)
  else
    match r.extras.find? fun (name, _) => reservedNames.contains name with
    | some (name, _) => s.fail (.reservedName name)
    | none =>
      match (s.loggers.setupOf s.log r.logger).deliver stamp ⟨s.records, s.console, s.files⟩ r with
      | .error fault => s.fail (.line fault)
      | .ok out =>
        (.done, { s with files := out.files, records := out.records, console := out.console })

def readLog (s : Session) (path : Text) : Outcome :=
  match s.fileText path with
  | .error e => s.fail e
  | .ok text => (.lines (Text.lines text), s)

def perform (s : Session) : Step → Outcome
  | .new dest => s.keepTelling dest Config.default
  | .copy on dest => s.copy on dest
  | .state on => s.state on
  | .assign on names name v => s.assign on names name v
  | .appendPeer on v => s.appendPeer on v
  | .equal left right => s.equal left right
  | .validate on => s.validate on
  | .overlay on document => s.overlay on document
  | .parse dest document => s.parse dest document
  | .environment dest env leader => s.environment dest env leader
  | .processEnvironment dest env leader => s.processEnvironment dest env leader
  | .getKey on kind name fallback => s.getKey on kind name fallback
  | .readKey on kind name fallback => s.readKey on kind name fallback
  | .setKey on name v => s.setKey on name v
  | .write path content => s.write path content
  | .read path => s.read path
  | .makeDirectory path => s.makeDirectory path
  | .isThere path => s.isThere path
  | .load path dest => s.load path dest
  | .save on path => s.save on path
  | .create path force => s.create path force
  | .view on dest => s.view on dest
  | .get on names => s.get on names
  | .put on names name v => s.put on names name v
  | .delete on names name => s.delete on names name
  | .sect on name dest => s.sect on name dest
  | .hash on => s.hash on
  | .describe on => s.describe on
  | .handle dest path => s.handle dest path
  | .handleView on dest => s.handleView on dest
  | .snapshot on dest => s.snapshot on dest
  | .reload on dest => s.reload on dest
  | .configure o => s.configure o
  | .log logger level template arguments extras =>
    s.logRecord
      { logger := Log.loggerName logger, level, template, arguments, extras }
  | .readLog path => s.readLog path

def step (s : Session) (t : Step) : Outcome :=
  s.fresh.perform t

def run (s : Session) (steps : List Step) : Session :=
  steps.foldl (fun s t => (s.step t).2) s

end Session
end NodeSettings
