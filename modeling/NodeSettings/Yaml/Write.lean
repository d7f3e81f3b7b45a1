import NodeSettings.Value.Literal
import NodeSettings.Yaml.Base64
import NodeSettings.Yaml.Layout

/-!
This module contains the writing of values as documents.
-/

namespace NodeSettings
namespace Yaml

inductive WriteFault where
  | unrepresentable
  | tooManyDigits
deriving DecidableEq

def undefinedText : String := ".nan"

/-- The text of a float, always with a point. -/
def floatText (x : Binary64) : String :=
  match x with
  | .nan => undefinedText
  | .infinity negative => if negative then "-.inf" else ".inf"
  | x =>
    let cs := x.text.toList
    if cs.contains '.' then x.text
    else
      String.ofList (cs.takeWhile (· != 'e') ++ (if cs.contains 'e' then ['.', '0'] else [])
        ++ cs.dropWhile (· != 'e'))

def stampTree (text : String) : Tree :=
  if Tag.ofPlain text.toList = .timestamp then .scalar .timestamp text
  else .tagged .timestamp .single text

def bytesTree (octets : List Nat) : Tree :=
  if octets.isEmpty then .tagged .binary .double "" else .block .binary (base64Lines octets)

mutual

def toTree : Value → Except WriteFault Tree
  | .null => return .scalar .null "null"
  | .boolean b => return .scalar .bool (if b then "true" else "false")
  | .integer n =>
    match integerText n with
    | .ok s => return .scalar .int s
    | .error .tooManyDigits => throw .tooManyDigits
  | .float x => return .scalar .float (floatText x)
  | .undefined _ => return .scalar .float undefinedText
  | .text t => return .scalar .str t
  | .list items | .tuple items => return .sequence (← toTrees items)
  | .map entries => return .mapping (← toEntries entries)
  | .bytes octets => return bytesTree octets
  | .date d => return stampTree d.text
  | .moment m => return stampTree (m.text " ")
  | .set items => return .set ((← toTrees items).map fun item => (item, .scalar .null "null"))
  | .duration _ | .foreign _ => throw .unrepresentable

def toTrees : List Value → Except WriteFault (List Tree)
  | [] => return []
  | x :: xs => return (← toTree x) :: (← toTrees xs)

def toEntries : List (Value × Value) → Except WriteFault (List (Tree × Tree))
  | [] => return []
  | (k, x) :: xs => do
    let key ← toTree k
    let value ← toTree x
    return (key, value) :: (← toEntries xs)

end

def write (v : Value) : Except WriteFault String :=
  (toTree v).map fun tree => String.ofList (Layout.document tree)

end Yaml
end NodeSettings
