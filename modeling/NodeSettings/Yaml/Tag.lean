import NodeSettings.Text.Basic

/-!
This module contains the tags of nodes, and the tags that plain scalars have by their form.
-/

namespace NodeSettings
namespace Yaml

inductive Tag where
  | null
  | bool
  | int
  | float
  | str
  | binary
  | timestamp
  | seq
  | map
  | set
  | omap
  | pairs
  | merge
  | value
  | other
deriving DecidableEq

namespace Tag

def leader : String := "tag:yaml.org,2002:"

def ofName (name : String) : Tag :=
  let known : List (String × Tag) :=
    [("null", null), ("bool", bool), ("int", int), ("float", float), ("str", str),
      ("binary", binary), ("timestamp", timestamp), ("seq", seq), ("map", map), ("set", set),
      ("omap", omap), ("pairs", pairs), ("merge", merge), ("value", value)]
  match known.find? fun (short, _) => leader ++ short == name with
  | some (_, tag) => tag
  | none => other

def isScalar : Tag → Bool
  | null | bool | int | float | str | binary | timestamp => true
  | _ => false

def boolWords : List String :=
  ["yes", "Yes", "YES", "no", "No", "NO", "true", "True", "TRUE", "false", "False", "FALSE",
    "on", "On", "ON", "off", "Off", "OFF"]

def nullWords : List String :=
  ["~", "null", "Null", "NULL", ""]

def isBinaryPlace (c : Char) : Bool :=
  c == '0' || c == '1' || c == '_'

def isOctalPlace (c : Char) : Bool :=
  ('0' ≤ c && c ≤ '7') || c == '_'

def isDecimalPlace (c : Char) : Bool :=
  c.isDigit || c == '_'

def isHexPlace (c : Char) : Bool :=
  c.isDigit || ('a' ≤ c && c ≤ 'f') || ('A' ≤ c && c ≤ 'F') || c == '_'

def dropSign : List Char → List Char
  | '+' :: cs | '-' :: cs => cs
  | cs => cs

/-- Places of an hour: a colon, then at most two digits, of which the first is below six. -/
def sixtieths : List Char → List Char
  | ':' :: a :: b :: cs =>
    if '0' ≤ a && a ≤ '5' && b.isDigit then sixtieths cs
    else if a.isDigit then sixtieths (b :: cs)
    else ':' :: a :: b :: cs
  | [':', a] => if a.isDigit then [] else [':', a]
  | cs => cs

/-- The characters are a number in base 60: decimal places, then at least one smaller place. -/
def isSexagesimal (cs : List Char) : Bool :=
  match cs.dropWhile isDecimalPlace with
  | ':' :: rest => (sixtieths (':' :: rest)).isEmpty
  | _ => false

def isInteger (cs : List Char) : Bool :=
  match dropSign cs with
  | '0' :: 'b' :: rest => !rest.isEmpty && rest.all isBinaryPlace
  | '0' :: 'x' :: rest => !rest.isEmpty && rest.all isHexPlace
  | '0' :: rest => rest.all isOctalPlace
  | c :: rest => '1' ≤ c && c ≤ '9' && (rest.all isDecimalPlace || isSexagesimal (c :: rest))
  | [] => false

def isExponent : List Char → Bool
  | [] => true
  | e :: sign :: digits =>
    (e == 'e' || e == 'E') && (sign == '+' || sign == '-') && !digits.isEmpty
      && digits.all Char.isDigit
  | _ => false

def isFloat (cs : List Char) : Bool :=
  let unsigned := dropSign cs
  let word := String.ofList unsigned
  if [".inf", ".Inf", ".INF"].contains word then true
  else if [".nan", ".NaN", ".NAN"].contains (String.ofList cs) then true
  else
    match unsigned with
    | '.' :: c :: rest =>
      cs.head? == some '.' && c.isDigit && isExponent (rest.dropWhile isDecimalPlace)
    | c :: rest =>
      c.isDigit &&
        match rest.dropWhile isDecimalPlace with
        | '.' :: rest => isExponent (rest.dropWhile isDecimalPlace)
        | ':' :: rest =>
          match sixtieths (':' :: rest) with
          | '.' :: rest => rest.all isDecimalPlace
          | _ => false
        | _ => false
    | [] => false

def digits? (least most : Nat) (cs : List Char) : Option (List Char × List Char) :=
  let n := (cs.takeWhile Char.isDigit).length.min most
  if n < least then none else some (cs.take n, cs.drop n)

def behind? (sign : Char) : List Char → Option (List Char)
  | [] => none
  | c :: cs => if c == sign then some cs else none

end Tag

structure StampText where
  year : List Char
  month : List Char
  day : List Char
  clock : Option (List Char × List Char × List Char)
  fraction : List Char
  /-- Sign, hours and minutes of the distance from universal time; no sign for none. -/
  zone : Option (Option Char × List Char × List Char)
deriving DecidableEq

namespace StampText

def zone? (cs : List Char) : Option (Option (Option Char × List Char × List Char)) :=
  match cs.dropWhile fun c => c == ' ' || c == '\t' with
  | [] => if cs.isEmpty then some none else none
  | ['Z'] => some (some (none, [], []))
  | c :: rest =>
    if c == '+' || c == '-' then do
      let (hours, rest) ← Tag.digits? 1 2 rest
      match rest with
      | [] => return some (some c, hours, [])
      | ':' :: rest =>
        let (minutes, rest) ← Tag.digits? 2 2 rest
        if rest.isEmpty then return some (some c, hours, minutes) else none
      | _ => none
    else none

def ofChars? (cs : List Char) : Option StampText := do
  let (year, rest) ← Tag.digits? 4 4 cs
  let rest ← Tag.behind? '-' rest
  let (month, rest) ← Tag.digits? 1 2 rest
  let rest ← Tag.behind? '-' rest
  let (day, rest) ← Tag.digits? 1 2 rest
  match rest with
  | [] => return ⟨year, month, day, none, [], none⟩
  | c :: rest =>
    let rest ← if c == 'T' || c == 't' then some rest
      else if c == ' ' || c == '\t' then
        some (rest.dropWhile fun c => c == ' ' || c == '\t')
      else none
    let (hour, rest) ← Tag.digits? 1 2 rest
    let rest ← Tag.behind? ':' rest
    let (minute, rest) ← Tag.digits? 2 2 rest
    let rest ← Tag.behind? ':' rest
    let (second, rest) ← Tag.digits? 2 2 rest
    let (fraction, rest) := match rest with
      | '.' :: rest => rest.span Char.isDigit
      | rest => ([], rest)
    let zone ← zone? rest
    return ⟨year, month, day, some (hour, minute, second), fraction, zone⟩

end StampText

namespace Tag

def dropLastBreak (cs : List Char) : List Char :=
  if cs.getLast? == some '\n' then cs.dropLast else cs

/-- The characters have the form of a timestamp; a day without a time has two digits throughout. -/
def isTimestamp (cs : List Char) : Bool :=
  match StampText.ofChars? cs with
  | some t => t.clock.isSome || (t.month.length == 2 && t.day.length == 2)
  | none => false

/-- The tag that a plain scalar has by its form; a line break at its end does not count. -/
def ofPlain (text : List Char) : Tag :=
  let cs := dropLastBreak text
  let word := String.ofList cs
  let begins (signs : String) : Bool := text.head?.any signs.toList.contains
  if begins "yYnNtTfFoO" && boolWords.contains word then bool
  else if begins "-+0123456789." && isFloat cs then float
  else if begins "-+0123456789" && isInteger cs then int
  else if begins "<" && word == "<<" then merge
  else if (text.isEmpty || begins "~nN") && nullWords.contains word then null
  else if begins "0123456789" && isTimestamp cs then timestamp
  else if begins "=" && word == "=" then value
  else if begins "!&*" && ["!", "&", "*"].contains word then other
  else str

def ofText (text : Text) : Tag :=
  match text.chars? with
  | some cs => ofPlain cs
  | none => str

end Tag
end Yaml
end NodeSettings
