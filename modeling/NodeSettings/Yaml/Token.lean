import NodeSettings.Yaml.Fault

/-!
This module contains the tokens of documents.
-/

namespace NodeSettings
namespace Yaml

inductive Directive where
  | version (major minor : Nat)
  | handle (name leader : String)
  | unknown
deriving DecidableEq

/-- A token; the last one of a document is its end, or the fault that its text ends with. -/
inductive Token where
  | directive (d : Directive)
  | documentStart
  | documentEnd
  | blockSequenceStart
  | blockMappingStart
  | blockEnd
  | flowSequenceStart
  | flowSequenceEnd
  | flowMappingStart
  | flowMappingEnd
  | blockEntry
  | flowEntry
  | key
  | value
  | alias (name : String)
  | anchor (name : String)
  /-- A tag: its suffix, behind a handle unless it is given in full. -/
  | tag (handle : Option String) (suffix : String)
  | scalar (text : Text) (isPlain : Bool)
  | streamEnd
  | broken (fault : Fault)
deriving DecidableEq

end Yaml
end NodeSettings
