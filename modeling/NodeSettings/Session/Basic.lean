import NodeSettings.Config.Environment
import NodeSettings.Config.File
import NodeSettings.Config.View
import NodeSettings.Log.Loggers

/-!
This module contains the state of a session: configurations, the names under which they, their views
and their handles are kept, the files, and the log. A configuration keeps its number for good, so
that a view goes on showing it when its name is given to something else.
-/

namespace NodeSettings

structure Handle where
  source : Option Path
  active : Nat

/-- What has methods: a whole configuration or a handle, behind no view. -/
inductive Owner where
  | config (number : Nat)
  | handle (number : Nat)
deriving DecidableEq

/-- What is kept under a name, behind a number of views. -/
inductive Slot where
  | config (number : Nat) (reach : Reach)
  | handle (number views : Nat)
  | value (v : Value) (views : Nat)
  | method (owner : Owner) (name : String) (views : Nat)

structure Session where
  configs : List Aggregate := []
  slots : List (String × Slot) := []
  handles : List Handle := []
  files : FileSystem := .empty
  log : Log.Setup := .recording
  loggers : Log.Loggers := {}
  records : List Log.Record := []
  console : List String := []

namespace Slot

def handleTypeName : String := "ConfigHandle"

def typeName : Slot → String
  | config _ reach => reach.part.typeName
  | handle .. => handleTypeName
  | value v _ => v.typeName
  | method .. => "function"

def lacks (slot : Slot) (name : String) : Failure :=
  .noAttribute slot.typeName name

def viewed : Slot → Slot
  | config number reach => config number { reach with views := reach.views + 1 }
  | handle number views => handle number (views + 1)
  | value v views => value v (views + 1)
  | method owner name views => method owner name (views + 1)

def isView : Slot → Bool
  | config _ reach => reach.isView
  | handle _ views => views != 0
  | value _ views => views != 0
  | method _ _ views => views != 0

/-- What a view is of; other things are not of anything. -/
def target? : Slot → Option Slot
  | config number ⟨part, views + 1⟩ => some (config number ⟨part, views⟩)
  | handle number (views + 1) => some (handle number views)
  | value v (views + 1) => some (value v views)
  | method owner name (views + 1) => some (method owner name views)
  | _ => none

/-- The attribute of a view that gives what it is of. -/
def targetName : String := "_ConfigView__target"

/-- The attribute of a method that gives its owner. -/
def ownerName : String := "__self__"

end Slot

/-- What a method behind a number of views gives as its owner; handles are not shown as views. -/
def Owner.slot (owner : Owner) (views : Nat) : Slot :=
  match owner with
  | config number => .config number ⟨none, min views 1⟩
  | handle number => .handle number 0

namespace Handle

def viewName : String := "view"

/-- The attribute of a handle that gives its active configuration. -/
def activeName : String := "_config"

def actions : List String :=
  ["snapshot", "reload"]

end Handle

namespace Session

/-- The time in lines of the log, which sessions do not tell. -/
def stamp : String := "T"

def slot (s : Session) (name : String) : Except Failure Slot :=
  match s.slots.lookup name with
  | some slot => return slot
  | none => throw (.emptySlot name)

def keep (s : Session) (name : String) (slot : Slot) : Session :=
  { s with slots := (name, slot) :: s.slots }

def config (s : Session) (number : Nat) : Aggregate :=
  s.configs.getD number Config.default

def setConfig (s : Session) (number : Nat) (c : Aggregate) : Session :=
  { s with configs := s.configs.set number c }

def nextNumber (s : Session) : Nat :=
  s.configs.length

def addConfig (s : Session) (c : Aggregate) : Session :=
  { s with configs := s.configs ++ [c] }

def keepConfig (s : Session) (name : String) (c : Aggregate) : Session :=
  (s.addConfig c).keep name (.config s.nextNumber {})

def emit? (s : Session) (records : List Log.Record) : Except Log.LineFault Session := do
  let out ← s.log.emitAll stamp ⟨s.records, s.console, s.files⟩ records
  return { s with files := out.files, records := out.records, console := out.console }

def emit (s : Session) (records : List Log.Record) : Session :=
  match s.emit? records with
  | .ok s => s
  | .error _ => s

def fresh (s : Session) : Session :=
  { s with records := [], console := [] }

def target (s : Session) (name missing : String) : Except Failure (Nat × Reach) :=
  match s.slot name with
  | .error e => throw e
  | .ok (.config number reach) => return (number, reach)
  | .ok slot => throw (slot.lacks missing)

def whole (s : Session) (name missing : String) : Except Failure (Nat × Aggregate) :=
  match s.target name missing with
  | .error e => throw e
  | .ok (number, reach) =>
    if reach.part = none then return (number, s.config number)
    else throw (.noAttribute reach.part.typeName missing)

def handleAt (s : Session) (number : Nat) : Handle :=
  s.handles.getD number ⟨none, 0⟩

def handleOf (s : Session) (name missing : String) : Except Failure (Nat × Handle) :=
  match s.slot name with
  | .error e => throw e
  | .ok (.handle number _) => return (number, s.handleAt number)
  | .ok slot => throw (slot.lacks missing)

/-- What the attribute of a name gives, but for that of views which gives what they are of. -/
def attr (s : Session) (slot : Slot) (name : String) : Except Failure Slot :=
  match slot with
  | .config number reach =>
    (reach.member (s.config number) name).map fun
      | .object inner => .config number inner
      | .value v => .value v 0
      | .action => .method (.config number) name 0
  | .handle number views =>
    if name = Handle.viewName then return .config (s.handleAt number).active ⟨none, 1⟩
    else if name = Handle.activeName then
      return .config (s.handleAt number).active ⟨none, min views 1⟩
    else if Handle.actions.contains name then return .method (.handle number) name 0
    else throw (slot.lacks name)
  | .value v _ => (v.inner name).map (.value · 0)
  | .method owner _ views =>
    if name = Slot.ownerName then return owner.slot views else throw (slot.lacks name)

def member (s : Session) (slot : Slot) (name : String) : Except Failure Slot :=
  match slot.target? with
  | some target => if name = Slot.targetName then return target else s.attr slot name
  | none => s.attr slot name

def follow (s : Session) (slot : Slot) : List String → Except Failure Slot
  | [] => return slot
  | name :: names =>
    match s.member slot name with
    | .error e => throw e
    | .ok inner => s.follow inner names

def reached (s : Session) (on : String) (names : List String) : Except Failure Slot := do
  s.follow (← s.slot on) names

end Session
end NodeSettings
