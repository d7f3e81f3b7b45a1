import NodeSettings.Duration.Basic
import NodeSettings.Value.Literal

/-!
This module contains the reading of durations from values: numbers are seconds, and texts are sums
of amounts with units.
-/

namespace NodeSettings
namespace Duration

inductive AmountUnit where
  | nanosecond | microsecond | millisecond | second | minute | hour
deriving DecidableEq

def AmountUnit.size : AmountUnit → Binary64
  | nanosecond => .ofDecimal false 1 (-3)
  | microsecond => .ofInt 1
  | millisecond => .ofInt 1000
  | second => .ofInt 1000000
  | minute => .ofInt 60000000
  | hour => .ofInt 3600000000

structure Amount where
  whole : List Char
  fraction : List Char
  unit : AmountUnit
deriving DecidableEq

def Amount.length (a : Amount) : Binary64 :=
  let n := Text.decimalValue (a.whole ++ a.fraction)
  (Binary64.ofDecimal false n (-a.fraction.length)).mul a.unit.size

/-- The sum of amounts in microseconds, taken from left to right. -/
def total (amounts : List Amount) : Binary64 :=
  amounts.foldl (fun sum a => sum.add a.length) (Binary64.zero false)

def readUnit? : List Char → Option (AmountUnit × List Char)
  | 'n' :: 's' :: cs => some (.nanosecond, cs)
  | 'u' :: 's' :: cs => some (.microsecond, cs)
  | '\u00b5' :: 's' :: cs => some (.microsecond, cs)
  | '\u03bc' :: 's' :: cs => some (.microsecond, cs)
  | 'm' :: 's' :: cs => some (.millisecond, cs)
  | 's' :: cs => some (.second, cs)
  | 'm' :: cs => some (.minute, cs)
  | 'h' :: cs => some (.hour, cs)
  | _ => none

def readNumber? (cs : List Char) : Option (List Char × List Char × List Char) :=
  match cs.span Text.isDecimal with
  | ([], '.' :: cs) =>
    match cs.span Text.isDecimal with
    | ([], _) => none
    | (fraction, rest) => some ([], fraction, rest)
  | ([], _) => none
  | (whole, '.' :: cs) =>
    let (fraction, rest) := cs.span Text.isDecimal
    some (whole, fraction, rest)
  | (whole, rest) => some (whole, [], rest)

def readAmount? (cs : List Char) : Option (Amount × List Char) :=
  (readNumber? cs).bind fun (whole, fraction, rest) =>
    (readUnit? rest).map fun (unit, rest) => (⟨whole, fraction, unit⟩, rest)

/-- The first amount in a text, with the number of characters before it and what follows it. -/
def findAmount? : List Char → Option (Nat × Amount × List Char)
  | [] => none
  | c :: cs =>
    match readAmount? (c :: cs) with
    | some found => some (0, found)
    | none => (findAmount? cs).map fun (before, found) => (before + 1, found)

/--
The amounts that a text consists of. Each is looked for in the characters left, of which it takes at
least one; none is skipped on the way to it, and none is left at the end.
-/
def readAmounts? (cs : List Char) : Option (List Amount) :=
  go cs.length cs
where
  go : Nat → List Char → Option (List Amount)
    | _, [] => some []
    | 0, _ :: _ => none
    | fuel + 1, cs =>
      match findAmount? cs with
      | some (0, amount, rest) => (go fuel rest).map (amount :: ·)
      | _ => none

def readSign : List Char → Bool × List Char
  | '-' :: cs => (true, cs)
  | '+' :: cs => (false, cs)
  | cs => (false, cs)

inductive ReadFault where
  | invalid (shown : String)
  | outOfRange (shown : String)
  | belowPrecision (shown : String)
  | undefined
  | unshowable (fault : LiteralFault)
deriving DecidableEq

def refuse (fault : String → ReadFault) (raw : Value) : ReadFault :=
  match raw.literal with
  | .ok shown => fault shown
  | .error e => .unshowable e

def ofLength (raw : Value) (x : Binary64) : Except ReadFault Duration :=
  let small := !x.isZero && x.compareInt? 1 == some .lt && x.compareInt? (-1) == some .gt
  if small then throw (refuse .belowPrecision raw)
  else
    match x with
    | .nan => throw .undefined
    | x =>
      match x.round?.bind ofMicros? with
      | some d => return d
      | none => throw (refuse .outOfRange raw)

def ofText (t : Text) : Except ReadFault Duration :=
  let raw := Value.text t
  let (negative, cs) := readSign (Text.stripChars t.chars)
  if cs = ['0'] then return zero
  else if cs.isEmpty then throw (refuse .invalid raw)
  else
    match readAmounts? cs with
    | none => throw (refuse .invalid raw)
    | some amounts =>
      let length := total amounts
      ofLength raw (if negative then length.neg else length)

def ofValue (raw : Value) : Except ReadFault Duration :=
  match raw with
  | .duration d => return d
  | .integer n =>
    match ofMicros? (n * 1000000) with
    | some d => return d
    | none => throw (refuse .outOfRange raw)
  | .float x => ofLength raw (x.mul (.ofInt 1000000))
  | .undefined _ => throw .undefined
  | .text t => ofText t
  | raw => throw (refuse .invalid raw)

end Duration
end NodeSettings
