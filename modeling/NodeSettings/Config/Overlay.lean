import NodeSettings.Config.Validation
import NodeSettings.Duration.Parse

/-!
This module contains the overlay of a document on a configuration. A document is read as a sequence
of steps, depth first; the steps in front of the first fault are carried out.
-/

namespace NodeSettings

inductive Expected where
  | text | integer | boolean | texts | object
  | duration (fault : Duration.ReadFault)
deriving DecidableEq

inductive OverlayFault where
  | notAMapping
  | mistyped (path : String) (expected : Expected)
  | unnameable (fault : LiteralFault)
deriving DecidableEq

inductive OverlayStep where
  | ignore (path : Text)
  | assign (s : Setting) (v : Value)
  | fail (fault : OverlayFault)

namespace Overlay

def asTexts? (items : List Value) : Option (List Value) :=
  if items.all fun | .text _ => true | _ => false then some items else none

def parse (t : SettingType) (raw : Value) : Except Expected Value :=
  match t, raw with
  | .text, .text s => return .text s
  | .text, _ => throw .text
  | .integer, .integer n => return .integer n
  | .integer, _ => throw .integer
  | .boolean, .boolean b => return .boolean b
  | .boolean, _ => throw .boolean
  | .duration, raw =>
    match Duration.ofValue raw with
    | .ok d => return .duration d
    | .error e => throw (.duration e)
  | .texts, .list items =>
    match asTexts? items with
    | some items => return .list items
    | none => throw .text
  | .texts, _ => throw .texts

def settingSteps (path : String) (s : Setting) : Value → List OverlayStep
  | .null => []
  | raw =>
    match parse s.type raw with
    | .ok v => [.assign s v]
    | .error expected => [.fail (.mistyped path expected)]

def ownedSteps (owner : Option Section) (before : String) :
    List (Value × Value) → List OverlayStep
  | [] => []
  | (key, raw) :: entries =>
    match key.plain with
    | .error e => [.fail (.unnameable e)]
    | .ok name =>
      (match name.toString?.bind (Setting.find? owner) with
        | none => [.ignore (before ++ name)]
        | some s => settingSteps (before ++ s.name) s raw) ++ ownedSteps owner before entries

def sectionSteps (x : Section) : Value → List OverlayStep
  | .null => []
  | .map entries => ownedSteps (some x) (x.name ++ ".") entries
  | _ => [.fail (.mistyped x.name .object)]

/-- What the entries of a document ask for, of which the keys name sections or general settings. -/
def entrySteps : List (Value × Value) → List OverlayStep
  | [] => []
  | (key, raw) :: entries =>
    match key.plain with
    | .error e => [.fail (.unnameable e)]
    | .ok name =>
      (match name.toString?.bind Section.ofName? with
        | some x => sectionSteps x raw
        | none =>
          match name.toString?.bind (Setting.find? none) with
          | none => [.ignore name]
          | some s => settingSteps s.name s raw) ++ entrySteps entries

def steps : Value → List OverlayStep
  | .null => []
  | .map entries => entrySteps entries
  | _ => [.fail .notAMapping]

def stepsWithin (x : Section) : Value → List OverlayStep
  | .null => []
  | .map entries => ownedSteps (some x) "" entries
  | _ => [.fail .notAMapping]

structure Outcome where
  config : Config
  ignored : List Text
  fault : Option OverlayFault

/-- The configuration after the steps in front of the first fault. -/
def run (c : Config) : List OverlayStep → Outcome
  | [] => ⟨c, [], none⟩
  | .ignore path :: rest =>
    let outcome := run c rest
    { outcome with ignored := path :: outcome.ignored }
  | .assign s v :: rest => run (c.set s v) rest
  | .fail fault :: _ => ⟨c, [], some fault⟩

end Overlay

namespace Config

def overlay (c : Config) (document : Value) : Overlay.Outcome :=
  Overlay.run c (Overlay.steps document)

end Config

inductive DocumentFault where
  | overlay (fault : OverlayFault)
  | validation (fault : ValidationFault)
deriving DecidableEq

/-- The valid configuration that a document describes: the defaults with the document over them. -/
def Config.ofDocument (document : Value) : Except DocumentFault Config :=
  let outcome := default.overlay document
  match outcome.fault with
  | some fault => throw (.overlay fault)
  | none =>
    match outcome.config.validate with
    | .error fault => throw (.validation fault)
    | .ok () => return outcome.config

end NodeSettings
