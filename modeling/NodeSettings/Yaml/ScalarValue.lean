import NodeSettings.Calendar
import NodeSettings.Binary64.Decimal
import NodeSettings.Text.Case
import NodeSettings.Yaml.Base64
import NodeSettings.Yaml.Tag

/-!
This module contains the values of scalars, by their tags.
-/

namespace NodeSettings
namespace Yaml

def dropUnderlines (points : List CodePoint) : List CodePoint :=
  points.filter (· != .char '_')

def isNegative (points : List CodePoint) : Bool :=
  points.head? == some (.char '-')

def dropSign : List CodePoint → List CodePoint
  | .char '+' :: points | .char '-' :: points => points
  | points => points

def shownInteger (points : List CodePoint) : String :=
  String.ofList ((Text.quoted ⟨points⟩).toList.take 200)

def digitInBase? (base : Nat) (c : Char) : Option Nat :=
  let value :=
    if c.isDigit then some (c.toNat - 48)
    else if 'a' ≤ c && c ≤ 'z' then some (c.toNat - 87)
    else if 'A' ≤ c && c ≤ 'Z' then some (c.toNat - 55)
    else none
  value.filter (· < base)

def dropBaseMark (base : Nat) : List Char → List Char
  | '0' :: c :: cs =>
    let marked := (base = 2 && (c == 'b' || c == 'B')) || (base = 8 && (c == 'o' || c == 'O'))
      || (base = 16 && (c == 'x' || c == 'X'))
    if marked then cs else '0' :: c :: cs
  | cs => cs

/--
The integer that a text writes in a base, with a sign if need be. Too many digits are a fault even
if something else follows them.
-/
def parseInteger (base : Nat) (points : List CodePoint) : Except Fault Int :=
  let cs := Text.numeral points
  let negative := cs.head? == some '-'
  let cs := dropBaseMark base (Tag.dropSign cs)
  let digits := (cs.map (digitInBase? base)).takeWhile Option.isSome
  if base = 10 && maxDigits < digits.length then throw (.tooManyDigits digits.length)
  else if digits.isEmpty || digits.length != cs.length then
    throw (.badInteger base (shownInteger points))
  else
    let n : Int := Text.ofDigits base 0 (digits.map fun d => d.getD 0)
    return if negative then -n else n

def splitColons : List CodePoint → List (List CodePoint)
  | [] => [[]]
  | p :: points =>
    if p = .char ':' then [] :: splitColons points
    else
      match splitColons points with
      | [] => [[p]]
      | piece :: pieces => (p :: piece) :: pieces

def integerValue (text : Text) : Except Fault Int := do
  let points := dropUnderlines text.points
  let signed (n : Int) : Int := if isNegative points then -n else n
  if points.isEmpty then throw .emptyNumber
  match dropSign points with
  | [] => throw .emptyNumber
  | [.char '0'] => return 0
  | .char '0' :: .char 'b' :: rest => return signed (← parseInteger 2 rest)
  | .char '0' :: .char 'x' :: rest => return signed (← parseInteger 16 rest)
  | .char '0' :: rest => return signed (← parseInteger 8 (.char '0' :: rest))
  | points =>
    if points.contains (.char ':') then
      let places ← (splitColons points).mapM (parseInteger 10)
      return signed (places.foldl (fun n place => 60 * n + place) 0)
    else return signed (← parseInteger 10 points)

def parseFloat (points : List CodePoint) : Except Fault Binary64 :=
  match Binary64.ofPoints? points with
  | some x => return x
  | none => throw (.badFloat (Text.quoted ⟨points⟩))

def sumPlaces (places : List Binary64) : Binary64 :=
  let step (acc : Nat × Binary64) (place : Binary64) : Nat × Binary64 :=
    (acc.1 * 60, acc.2.add (place.mul (.ofInt acc.1)))
  (places.foldl step (1, .zero false)).2

/--
The float of a text: a word, a decimal, or a number in base 60. The word for what is no number
always stands for the same undefined float; any other is new, with the mark that is given.
-/
def floatValue (mark : Nat) (text : Text) : Except Fault Value := do
  let points := (Text.lower ⟨dropUnderlines text.points⟩).points
  let negative := isNegative points
  let signed (x : Binary64) : Binary64 := if negative then x.neg else x
  if points.isEmpty then throw .emptyNumber
  let points := dropSign points
  let word : Text := ⟨points⟩
  if word = (".inf" : Text) then return .float (.infinity negative)
  else if word = (".nan" : Text) then return .undefined 0
  else if points.contains (.char ':') then
    let places ← (splitColons points).mapM parseFloat
    return .ofFloat mark (signed (sumPlaces places.reverse))
  else return .ofFloat mark (signed (← parseFloat points))

def boolValue (text : Text) : Except Fault Bool :=
  let word := text.lower
  let isIn (words : List String) : Bool := words.any fun w => word = (w : Text)
  if isIn ["yes", "true", "on"] then return true
  else if isIn ["no", "false", "off"] then return false
  else throw (.badBoolean (Text.quoted word))

def binaryValue (text : Text) : Except Fault (List Nat) :=
  if text.points.all (·.toNat < 128) then decodeBase64 0 0 0 text.chars else throw .malformed

def zoneOffset (sign : Option Char) (hours minutes : List Char) : Except Fault Int :=
  match sign with
  | none => return 0
  | some sign =>
    let length : Int := Text.decimalValue hours * 3600 + Text.decimalValue minutes * 60
    let offset := if sign == '-' then -length else length
    if 86400 ≤ length then
      match Duration.ofMicros? (offset * 1000000) with
      | some d => throw (.badOffset d.literal)
      | none => throw .malformed
    else return offset

def dateValue (t : StampText) : Except Fault CivilDate :=
  let year := Text.decimalValue t.year
  let month := Text.decimalValue t.month
  let day := Text.decimalValue t.day
  if year = 0 then throw .badYear
  else if month = 0 || 12 < month then throw .badMonth
  else if day = 0 || daysInMonth year month < day then throw .badDay
  else return ⟨year, month, day⟩

def timestampValue (text : Text) : Except Fault Value := do
  match text.chars?.bind fun cs => StampText.ofChars? (Tag.dropLastBreak cs) with
  | none => throw .badTimestamp
  | some t =>
    match t.clock with
    | none => return .date (← dateValue t)
    | some (hour, minute, second) =>
      let offset ← match t.zone with
        | none => pure none
        | some (sign, hours, minutes) => do pure (some (← zoneOffset sign hours minutes))
      let date ← dateValue t
      let hour := Text.decimalValue hour
      let minute := Text.decimalValue minute
      let second := Text.decimalValue second
      let fraction := (t.fraction ++ List.replicate 6 '0').take 6
      if 23 < hour then throw .badHour
      else if 59 < minute then throw .badMinute
      else if 59 < second then throw .badSecond
      else return .moment ⟨date, hour, minute, second, Text.decimalValue fraction, offset⟩

def scalarValue (tag : Tag) (mark : Nat) (text : Text) : Except Fault Value :=
  match tag with
  | .null => return .null
  | .bool => return .boolean (← boolValue text)
  | .int => return .integer (← integerValue text)
  | .float => floatValue mark text
  | .str => return .text text
  | .binary => return .bytes (← binaryValue text)
  | .timestamp => timestampValue text
  | _ => throw .malformed

end Yaml
end NodeSettings
