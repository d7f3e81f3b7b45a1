import NodeSettings.Text.Basic
import NodeSettings.Text.Digit
import NodeSettings.Text.Printable

/-!
This module contains the quoted form in which messages show a text.
-/

namespace NodeSettings
namespace Text

/-- Double quotes are used only for a text that has a single quote and no double quote. -/
def quoteFor (cs : List Char) : Char :=
  if cs.contains '\'' && !cs.contains '"' then '"' else '\''

def quotedChar (quote c : Char) : List Char :=
  if c == quote || c == '\\' then ['\\', c]
  else if c == '\n' then ['\\', 'n']
  else if c == '\r' then ['\\', 'r']
  else if c == '\t' then ['\\', 't']
  else if isPrintable c then [c]
  else if c.toNat ≤ 0xFF then '\\' :: 'x' :: hexadecimal 2 c.toNat
  else if c.toNat ≤ 0xFFFF then '\\' :: 'u' :: hexadecimal 4 c.toNat
  else '\\' :: 'U' :: hexadecimal 8 c.toNat

def quotedPoint (quote : Char) : CodePoint → List Char
  | .char c => quotedChar quote c
  | .surrogate n => '\\' :: 'u' :: hexadecimal 4 (0xD800 + n.val)

def quoted (t : Text) : String :=
  let quote := quoteFor t.chars
  String.ofList (quote :: t.points.flatMap (quotedPoint quote) ++ [quote])

end Text
end NodeSettings
