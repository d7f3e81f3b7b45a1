import NodeSettings.Value.Literal

/-!
This module contains the writing of values as JSON in one line of printable ASCII characters.
-/

namespace NodeSettings
namespace Json

def unitEscape (n : Nat) : List Char :=
  '\\' :: 'u' :: Text.hexadecimal 4 n

/-- A character inside quotes; one beyond 16 bits is written as two units. -/
def encodeChar (c : Char) : List Char :=
  if c == '"' || c == '\\' then ['\\', c]
  else if c == '\n' then ['\\', 'n']
  else if c == '\r' then ['\\', 'r']
  else if c == '\t' then ['\\', 't']
  else if c == '\x08' then ['\\', 'b']
  else if c == '\x0c' then ['\\', 'f']
  else if 32 ≤ c.toNat && c.toNat < 127 then [c]
  else if c.toNat < 0x10000 then unitEscape c.toNat
  else
    let n := c.toNat - 0x10000
    unitEscape (0xD800 + n / 0x400) ++ unitEscape (0xDC00 + n % 0x400)

def encodePoint : CodePoint → List Char
  | .char c => encodeChar c
  | .surrogate n => unitEscape (0xD800 + n.val)

def encodeText (t : Text) : List Char :=
  '"' :: t.points.flatMap encodePoint ++ ['"']

inductive EncodeFault where
  | literal (fault : LiteralFault)
  | badKey (typeName : String)
deriving DecidableEq

def floatText (x : Binary64) : String :=
  match x with
  | .nan => "NaN"
  | .infinity negative => if negative then "-Infinity" else "Infinity"
  | x => x.text

def integerText (n : Int) : Except EncodeFault String :=
  (NodeSettings.integerText n).mapError .literal

def keyText : Value → Except EncodeFault Text
  | .text t => return t
  | .null => return "null"
  | .boolean b => return if b then "true" else "false"
  | .integer n => return (← integerText n)
  | .float x => return floatText x
  | .undefined _ => return floatText .nan
  | v => throw (.badKey v.typeName)

def commaSeparated : List (List Char) → List Char
  | [] => []
  | [x] => x
  | x :: xs => x ++ ',' :: commaSeparated xs

mutual

def encode : Value → Except EncodeFault (List Char)
  | .null => return "null".toList
  | .boolean b => return (if b then "true" else "false").toList
  | .integer n => return (← integerText n).toList
  | .float x => return (floatText x).toList
  | .undefined _ => return (floatText .nan).toList
  | .text t => return encodeText t
  | .list items | .tuple items => return '[' :: commaSeparated (← encodeItems items) ++ [']']
  | .map entries => return '\x7b' :: commaSeparated (← encodeEntries entries) ++ ['\x7d']
  | v =>
    match v.plain with
    | .ok s => return encodeText s
    | .error e => throw (.literal e)

def encodeItems : List Value → Except EncodeFault (List (List Char))
  | [] => return []
  | x :: xs => return (← encode x) :: (← encodeItems xs)

def encodeEntries : List (Value × Value) → Except EncodeFault (List (List Char))
  | [] => return []
  | (k, x) :: xs => do
    let key ← keyText k
    let value ← encode x
    return (encodeText key ++ ':' :: value) :: (← encodeEntries xs)

end

end Json
end NodeSettings
