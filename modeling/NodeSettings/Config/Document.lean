import NodeSettings.Config.Basic
import NodeSettings.Duration.Format

/-!
This module contains the document of a configuration: a mapping with every setting, the settings of
a section in a mapping of their own, and durations as texts.
-/

namespace NodeSettings
namespace Value

mutual

def written : Value → Value
  | duration d => text d.format
  | list items => list (writtenItems items)
  | v => v

def writtenItems : List Value → List Value
  | [] => []
  | x :: xs => written x :: writtenItems xs

end

end Value

namespace Config

def settingEntries (c : Config) (settings : List Setting) : List (Value × Value) :=
  settings.map fun s => (.text s.name, (c.get s).written)

def sectionEntry (c : Config) (x : Section) : Value × Value :=
  (.text x.name, .map (c.settingEntries x.settings))

def document (c : Config) : Value :=
  .map (c.settingEntries Setting.general ++ Section.all.map c.sectionEntry)

def sectionDocument (c : Config) (x : Section) : Value :=
  .map (c.settingEntries x.settings)

end Config
end NodeSettings
