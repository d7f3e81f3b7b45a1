import NodeSettings.Config.Aggregate

/-!
This module contains configurations and their sections as objects with attributes, and read-only
views of them. What has a name of theirs is reached through a view as a view, as a value or as a
method.
-/

namespace NodeSettings

namespace Value

def shown : Value → Value
  | list items => tuple items
  | v => v

end Value

namespace Config

def shown (c : Config) : Config :=
  ⟨fun s => (c.get s).shown⟩

end Config

def Aggregate.shown (a : Aggregate) : Aggregate where
  toConfig := a.toConfig.shown
  inPlace x := (a.inPlace x).map Value.shown
  lacks := a.lacks

/-- A part of a configuration, behind a number of views; behind none it can be changed. -/
structure Reach where
  part : Part := none
  views : Nat := 0
deriving DecidableEq

inductive Reached where
  | object (r : Reach)
  | value (v : Value)
  | action

namespace Reach

def isView (r : Reach) : Bool :=
  r.views != 0

def seen (r : Reach) (a : Aggregate) : Aggregate :=
  if r.isView then a.shown else a

/-- What the attribute of a name gives. Sections behind several views are behind one. -/
def member (r : Reach) (a : Aggregate) (name : String) : Except Failure Reached := do
  match ← r.part.member name with
  | .action => return .action
  | .field f =>
    a.need f
    match f with
    | .setting s => return .value ((r.seen a).get s)
    | .sect x =>
      match (r.seen a).inPlace x with
      | some v => return .value v
      | none => return .object ⟨some x, if r.isView then 1 else 0⟩

def field (r : Reach) (name : String) : Except Failure Field := do
  match ← r.part.member name with
  | .field f => return f
  | .action => throw (.readOnly r.part.typeName name)

def assignable (r : Reach) (name : String) : Except Failure Field :=
  if r.isView then throw (.cannotSet name) else r.field name

def deletable (r : Reach) (a : Aggregate) (name : String) : Except Failure Field :=
  if r.isView then throw (.cannotDelete name)
  else do
    let f ← r.field name
    if a.lacks f then throw (.unset name) else return f

def behindViews (views : Nat) (literal : String) : String :=
  String.join (List.replicate views "ConfigView(") ++ literal
    ++ String.join (List.replicate views ")")

def literal (r : Reach) (a : Aggregate) : Except Failure String := do
  return behindViews r.views (← a.literal r.part)

def document (r : Reach) (a : Aggregate) : Except Failure Value := do
  a.needDocument r.part
  return (r.seen a).partDocument r.part

def viewTypeName : String := "ConfigView"

def typeName (r : Reach) : String :=
  if r.isView then viewTypeName else r.part.typeName

/-- The attribute that leads from an object to the owner of a setting; it may be missing. -/
def owns (r : Reach) (a : Aggregate) (s : Setting) : Except Failure Unit :=
  match r.part, s.owner with
  | none, none => return ()
  | none, some x => do
    a.need (.sect x)
    match (r.seen a).inPlace x with
    | some v => throw (v.refusal s.name)
    | none => return ()
  | some x, none =>
    if r.isView then return () else throw (.noAttribute (Part.typeName (some x)) s.name)
  | some x, some y => throw (.noAttribute (Part.typeName (some x)) y.name)

def readKey (r : Reach) (a : Aggregate) (kind : Kind) (name : String) (fallback : Value) :
    Except Failure Value :=
  match Key.lookup? name kind with
  | none => return fallback
  | some k =>
    match r.part, k.setting.owner with
    | none, _ => (r.seen a).read k.setting
    | some x, none => throw (.noAttribute (Part.typeName (some x)) k.setting.name)
    | some x, some y => throw (.noAttribute (Part.typeName (some x)) y.name)

def keyTarget (r : Reach) (a : Aggregate) (name : String) (v : Value) : Except Failure Setting :=
  match Key.accepting name v with
  | .error e => throw (.key e)
  | .ok k => do
    r.owns a k.setting
    if r.isView then throw (.cannotSet k.setting.name) else return k.setting

/-- What a document asks for, and what it meets with after that. -/
def steps (r : Reach) (a : Aggregate) (document : Value) : List OverlayStep × Option Failure :=
  match r.part with
  | none =>
    let (document, obstacle) := a.clear document
    (Overlay.steps document, obstacle)
  | some x => (Overlay.stepsWithin x document, none)

/-- How far an overlay on a view comes: it stops at the first assignment. -/
def refuseAssignments : List OverlayStep → Except Failure (List Text)
  | [] => return []
  | .ignore path :: rest => return path :: (← refuseAssignments rest)
  | .assign s _ :: _ => throw (.cannotSet s.name)
  | .fail fault :: _ => throw (.overlay fault)

end Reach
end NodeSettings
