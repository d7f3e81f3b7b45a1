import NodeSettings.Yaml.Build
import NodeSettings.Yaml.Compose
import NodeSettings.Yaml.Encoding
import NodeSettings.Yaml.Scan

/-!
This module contains the reading of a document from bytes.
-/

namespace NodeSettings
namespace Yaml

def readChars (cs : List Char) : Except Fault Value := do
  match ← Compose.document (tokens cs) with
  | none => return .null
  | some (root, graph) => graph.value root

def read (bytes : ByteArray) : Except Fault Value :=
  match characters? bytes with
  | none => throw .malformed
  | some cs => readChars cs

end Yaml
end NodeSettings
