import NodeSettings.Config.Document
import NodeSettings.Value.Attribute

/-!
This module contains configurations as objects whose fields are assigned to and deleted. Values can
be of any shape and can also be put in the place of a whole section, of which nothing is to be found
there any more. Whatever needs a field that has been deleted fails.
-/

namespace NodeSettings

abbrev Part := Option Section

/-- What a part of a configuration holds under a name. -/
inductive Field where
  | sect (x : Section)
  | setting (s : Setting)
deriving DecidableEq

namespace Field

def name : Field → String
  | sect x => x.name
  | setting s => s.name

def part : Field → Part
  | sect _ => none
  | setting s => s.owner

end Field

inductive Member where
  | field (f : Field)
  | action
deriving DecidableEq

namespace Part

def typeName : Part → String
  | none => "Config"
  | some .network => "NetworkConfig"
  | some .security => "SecurityConfig"
  | some .storage => "StorageConfig"
  | some .wallet => "WalletConfig"
  | some .node => "NodeConfig"

def settings : Part → List Setting
  | none => Setting.all
  | some x => x.settings

def fields : Part → List Field
  | none => Setting.general.map .setting ++ Section.all.map .sect
  | some x => x.settings.map .setting

def actions : Part → List String
  | none => ["copy", "validate", "get_string", "get_int", "get_bool", "get_duration"]
  | some _ => []

def field? (p : Part) (name : String) : Option Field :=
  let inner :=
    match p with
    | none => (Section.ofName? name).map Field.sect
    | some _ => none
  inner.or ((Setting.find? p name).map .setting)

def member (p : Part) (name : String) : Except Failure Member :=
  match p.field? name with
  | some f => return .field f
  | none => if p.actions.contains name then return .action else throw (.noAttribute p.typeName name)

end Part

abbrev Changes := List (String × Value)

namespace Config

def changes (c : Config) (settings : List Setting) : Changes :=
  settings.filterMap fun s =>
    if (c.get s).same s.default then none else some (s.path, c.get s)

def equalIn (c d : Config) (settings : List Setting) : Bool :=
  settings.all fun s => (c.get s).equal (d.get s)

end Config

/-- A configuration, with what has been put in the place of sections and what has been deleted. -/
structure Aggregate extends Config where
  inPlace : Section → Option Value := fun _ => none
  lacks : Field → Bool := fun _ => false

instance : Coe Config Aggregate :=
  ⟨fun c => { toConfig := c }⟩

/-- The fields that the steps in front of the first fault assign to. -/
def Overlay.assigned : List OverlayStep → List Field
  | .assign s _ :: rest => .setting s :: assigned rest
  | .ignore _ :: rest => assigned rest
  | _ => []

namespace Aggregate

def regain (a : Aggregate) (f : Field) : Aggregate :=
  { a with lacks := fun g => g != f && a.lacks g }

def remove (a : Aggregate) (f : Field) : Aggregate :=
  { a with lacks := fun g => g == f || a.lacks g }

def set (a : Aggregate) (s : Setting) (v : Value) : Aggregate :=
  { a.regain (.setting s) with toConfig := a.toConfig.set s v }

def assign (a : Aggregate) (v : Value) : Field → Aggregate
  | .setting s => a.set s v
  | .sect x =>
    { a.regain (.sect x) with inPlace := fun y => if y = x then some v else a.inPlace y }

/-- The configuration after the steps in front of the first fault. -/
def overlaid (a : Aggregate) (steps : List OverlayStep) : Aggregate where
  toConfig := (Overlay.run a.toConfig steps).config
  inPlace := a.inPlace
  lacks f := !(Overlay.assigned steps).contains f && a.lacks f

def need (a : Aggregate) (f : Field) : Except Failure Unit :=
  if a.lacks f then throw (.noAttribute f.part.typeName f.name) else return ()

def needAll (a : Aggregate) (p : Part) : Except Failure Unit :=
  p.fields.forM a.need

def needOwner (a : Aggregate) (s : Setting) : Except Failure Unit :=
  match s.owner with
  | none => return ()
  | some x => a.need (.sect x)

def held (a : Aggregate) (s : Setting) : Except Failure Value := do
  a.need (.setting s)
  return a.get s

/-- What the path of a setting leads to. -/
def read (a : Aggregate) (s : Setting) : Except Failure Value := do
  a.needOwner s
  match s.owner.bind a.inPlace with
  | some v => v.inner s.name
  | none => a.held s

def copied (copy : Nat) (a : Aggregate) : Aggregate where
  toConfig := a.toConfig.copied copy
  inPlace x := (a.inPlace x).map (Value.copied copy)
  lacks := a.lacks

def present (a : Aggregate) (settings : List Setting) : List Setting :=
  settings.filter fun s => !a.lacks (.setting s)

def sectionChanges (a : Aggregate) (x : Section) : Changes :=
  if a.lacks (.sect x) then []
  else
    match a.inPlace x with
    | some v => [(x.name, v)]
    | none => a.changes (a.present x.settings)

def changed (a : Aggregate) : Changes :=
  a.changes (a.present Setting.general) ++ Section.all.flatMap a.sectionChanges

def equalWithin (a b : Aggregate) (x : Section) : Except Failure Bool := do
  a.needAll (some x)
  b.needAll (some x)
  return a.equalIn b.toConfig x.settings

def equalSection (a b : Aggregate) (x : Section) : Except Failure Bool :=
  match a.inPlace x, b.inPlace x with
  | none, none => a.equalWithin b x
  | some v, some w => return v.equal w
  | _, _ => return false

/-- Nothing behind the first difference is looked at. -/
def equalPart (a b : Aggregate) : Part → Except Failure Bool
  | some x => a.equalWithin b x
  | none => do
    a.needAll none
    b.needAll none
    if a.equalIn b.toConfig Setting.general then Section.all.allM (a.equalSection b)
    else return false

def settingLiteral (a : Aggregate) (s : Setting) : Except Failure String := do
  let v ← a.held s
  return s.name ++ "=" ++ (← v.literal.mapError .unshowable)

def sectionLiteral (a : Aggregate) (x : Section) : Except Failure String := do
  let settings ← x.settings.mapM a.settingLiteral
  return Part.typeName (some x) ++ "(" ++ ", ".intercalate settings ++ ")"

def placeLiteral (a : Aggregate) (x : Section) : Except Failure String := do
  a.need (.sect x)
  match a.inPlace x with
  | some v => return x.name ++ "=" ++ (← v.literal.mapError .unshowable)
  | none => return x.name ++ "=" ++ (← a.sectionLiteral x)

def literal (a : Aggregate) : Part → Except Failure String
  | some x => a.sectionLiteral x
  | none => do
    let general ← Setting.general.mapM a.settingLiteral
    let sections ← Section.all.mapM a.placeLiteral
    return Part.typeName none ++ "(" ++ ", ".intercalate (general ++ sections) ++ ")"

def sectionEntry (a : Aggregate) (x : Section) : Value × Value :=
  match a.inPlace x with
  | some v => (.text x.name, v.written)
  | none => a.toConfig.sectionEntry x

def document (a : Aggregate) : Value :=
  .map (a.settingEntries Setting.general ++ Section.all.map a.sectionEntry)

def partDocument (a : Aggregate) : Part → Value
  | none => a.document
  | some x => a.sectionDocument x

def needSection (a : Aggregate) (x : Section) : Except Failure Unit := do
  a.need (.sect x)
  if (a.inPlace x).isNone then a.needAll (some x)

/-- Whether everything is there that the document of a part is gathered from. -/
def needDocument (a : Aggregate) : Part → Except Failure Unit
  | some x => a.needAll (some x)
  | none => do
    Setting.general.forM fun s => a.need (.setting s)
    Section.all.forM a.needSection

/-- Settings keep their bounds, where they are to be found; those without bounds are not read. -/
def checkSettings (a : Aggregate) (report : Setting → Option Section) :
    List Setting → Except Failure Unit
  | [] => return ()
  | s :: settings => do
    if !s.bounds.isEmpty then
      let v ← a.read s
      (Config.checkBounds (report s) s.name v s.bounds).mapError .validation
    checkSettings a report settings

def validate (a : Aggregate) : Except Failure Unit :=
  a.checkSettings Setting.owner Setting.all

def validateSection (a : Aggregate) (x : Section) : Except Failure Unit :=
  a.checkSettings (fun _ => none) x.settings

def getKey (a : Aggregate) (kind : Kind) (name : String) (fallback : Value) :
    Except Failure Value :=
  match Key.lookup? name kind with
  | none => return fallback
  | some k => a.read k.setting

/-- Why an entry of a document cannot be overlaid: the section it is for is not there as one. -/
def obstacle? (a : Aggregate) : Value × Value → Option Failure
  | (key, .map _) =>
    match key.plain with
    | .error _ => none
    | .ok name =>
      (name.toString?.bind Section.ofName?).bind fun x =>
        if a.lacks (.sect x) then some (.noAttribute (Part.typeName none) x.name)
        else (a.inPlace x).map fun _ => .noFields
  | _ => none

/-- What is in front of the first entry that is obstructed, and why that one is, if there is one. -/
def clear (a : Aggregate) : Value → Value × Option Failure
  | .map entries =>
    let (before, rest) := entries.span fun entry => (a.obstacle? entry).isNone
    (.map before, rest.head?.bind a.obstacle?)
  | v => (v, none)

end Aggregate
end NodeSettings
