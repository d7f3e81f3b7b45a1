import NodeSettings.Text.Basic
import NodeSettings.Text.Blank
import NodeSettings.Text.Digit

/-!
This module contains the characters of numerals: the texts of numbers, in which digits of all
scripts count as those of ASCII.
-/

namespace NodeSettings
namespace Text

/--
The character that a point counts as in a numeral. Blanks beyond ASCII are spaces; what cannot stand
in a numeral is a question mark, which cannot either.
-/
def numeralChar : CodePoint → Char
  | .surrogate _ => '?'
  | .char c =>
    if c.toNat < 127 then c
    else if isBlank c then ' '
    else
      match digitValue? c with
      | some n => Char.ofNat (48 + n)
      | none => '?'

def isNumeralBlank (c : Char) : Bool :=
  c == ' ' || (9 ≤ c.toNat && c.toNat ≤ 13)

def numeral (points : List CodePoint) : List Char :=
  let cs := (points.map numeralChar).dropWhile isNumeralBlank
  (cs.reverse.dropWhile isNumeralBlank).reverse

end Text
end NodeSettings
