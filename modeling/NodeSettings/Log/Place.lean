import NodeSettings.Value.Literal

/-!
This module contains the places of message templates: how a place is written behind its `%`, and
what it makes of the text of a value.
-/

namespace NodeSettings
namespace Log

inductive MessageFault where
  | notANumber (conversion : Char) (typeName : String)
  | notAnInteger (conversion : Char) (typeName : String)
  | notAFloat (typeName : String)
  | notWhole (infinite : Bool)
  | beyondFloats
  | notACharacter
  | beyondCharacters
  | notAWidth
  | hugeWidth
  | hugePrecision
  | widthBeyond
  | precisionBeyond
  | tooManyPlaces
  | tooMany
  | tooFew
  | unfinished
  | unfinishedName
  | noNames
  | unknownName (name : Text)
  | nameInList
  | unknownConversion (p : CodePoint) (index : Nat)
  | unshowable (fault : LiteralFault)
deriving DecidableEq

structure Place where
  toLeft : Bool := false
  signed : Bool := false
  spaced : Bool := false
  marked : Bool := false
  zeroed : Bool := false
  width : Option Nat := none
  precision : Option Nat := none
deriving DecidableEq

namespace Place

def withFlag? (p : Place) (c : Char) : Option Place :=
  match c with
  | '-' => some { p with toLeft := true }
  | '+' => some { p with signed := true }
  | ' ' => some { p with spaced := true }
  | '#' => some { p with marked := true }
  | '0' => some { p with zeroed := true }
  | _ => none

def fillText (p : Place) (points : List CodePoint) : List CodePoint :=
  let points := match p.precision with
    | some n => points.take n
    | none => points
  let gap := List.replicate (p.width.getD 0 - points.length) (CodePoint.char ' ')
  if p.toLeft then points ++ gap else gap ++ points

def fillNumber (p : Place) (negative : Bool) (mark digits : List Char) : List Char :=
  let sign := if negative then ['-'] else if p.signed then ['+'] else if p.spaced then [' '] else []
  let gap := p.width.getD 0 - (sign.length + mark.length + digits.length)
  if p.toLeft then sign ++ mark ++ digits ++ List.replicate gap ' '
  else if p.zeroed then sign ++ mark ++ List.replicate gap '0' ++ digits
  else List.replicate gap ' ' ++ sign ++ mark ++ digits

def preciseDigits (p : Place) (digits : List Char) : List Char :=
  List.replicate (p.precision.getD 0 - digits.length) '0' ++ digits

def fixedDigits (marked : Bool) (places units : Nat) : List Char :=
  let n := roundHalfEven (units * tenPow places) Binary64.unitsPerOne
  let all := Nat.toDigits 10 n
  let all := List.replicate (places + 1 - all.length) '0' ++ all
  let whole := all.length - places
  all.take whole ++ (if places = 0 && !marked then [] else '.' :: all.drop whole)

/--
The digits of a float that is rounded to one digit in front of the point and a number of places
behind it, as a number with all of them, and its power of ten.
-/
def leadingDigits (places units : Nat) : Nat × Int :=
  if units = 0 then (0, 0)
  else
    let power := Binary64.scale units Binary64.unitsPerOne - 1
    let shift := power - places
    let n := roundHalfEven (units * tenPow (-shift).toNat)
      (Binary64.unitsPerOne * tenPow shift.toNat)
    if tenPow (places + 1) ≤ n then (n / 10, power + 1) else (n, power)

def powerText (letter : Char) (power : Int) : List Char :=
  letter :: (if power < 0 then '-' else '+') :: (Text.padded 2 power.natAbs).toList

def scientificDigits (letter : Char) (marked : Bool) (places units : Nat) : List Char :=
  let (n, power) := leadingDigits places units
  let digits := (Text.padded (places + 1) n).toList
  digits.take 1 ++ (if places = 0 && !marked then [] else '.' :: digits.drop 1)
    ++ powerText letter power

/-- The digits without the zeros behind the point, and without the point if nothing is left. -/
def dropFraction (digits : List Char) : List Char :=
  if digits.contains '.' then
    ((digits.reverse.dropWhile (· == '0')).dropWhile (· == '.')).reverse
  else digits

/-- The digits of a float with a number of digits in all, with a power of ten if it is far off. -/
def generalDigits (letter : Char) (marked : Bool) (precision units : Nat) : List Char :=
  let count := if precision = 0 then 1 else precision
  let (n, power) := leadingDigits (count - 1) units
  let trim (digits : List Char) : List Char := if marked then digits else dropFraction digits
  if -4 ≤ power && power < count then
    trim (fixedDigits marked (count - 1 - power).toNat units)
  else
    let digits := (Text.padded count n).toList
    trim (digits.take 1 ++ (if count = 1 && !marked then [] else '.' :: digits.drop 1))
      ++ powerText letter power

def floatDigits (p : Place) (conversion : Char) (x : Binary64) : List Char :=
  let letter := if conversion.isUpper then 'E' else 'e'
  let precision := p.precision.getD 6
  match x.units? with
  | none =>
    let word := match x with
      | .infinity _ => "inf"
      | _ => "nan"
    if conversion.isUpper then word.toUpper.toList else word.toList
  | some units =>
    match conversion.toLower with
    | 'e' => scientificDigits letter p.marked precision units.natAbs
    | 'f' => fixedDigits p.marked precision units.natAbs
    | _ => generalDigits letter p.marked precision units.natAbs

end Place
end Log
end NodeSettings
