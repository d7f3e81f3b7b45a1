import NodeSettings.Value.Literal

/-!
This module contains the faults of documents. Most are faults of form; the others come from scalars
that have the form of a number, a date or an escape but not the content.
-/

namespace NodeSettings
namespace Yaml

inductive Fault where
  /-- The text is no document, or a node cannot be what its tag says. -/
  | malformed
  | noSuchCharacter
  /-- An escape gives a number that is far beyond the last character. -/
  | hugeCharacter
  | tooManyDigits (count : Nat)
  | badInteger (base : Nat) (shown : String)
  | badFloat (shown : String)
  | badBoolean (shown : String)
  | emptyNumber
  | badTimestamp
  | timestampInParts
  | endlessText
  | badYear
  | badMonth
  | badDay
  | badHour
  | badMinute
  | badSecond
  | badOffset (shown : String)
deriving DecidableEq

namespace Fault

def message : Fault → String
  | malformed => ""
  | noSuchCharacter => "chr() arg not in range(0x110000)"
  | hugeCharacter => "Python int too large to convert to C int"
  | tooManyDigits count =>
    "Exceeds the limit (" ++ Text.decimal maxDigits
      ++ " digits) for integer string conversion: value has " ++ Text.decimal count
      ++ " digits; use sys.set_int_max_str_digits() to increase the limit"
  | badInteger base shown =>
    "invalid literal for int() with base " ++ Text.decimal base ++ ": " ++ shown
  | badFloat shown => "could not convert string to float: " ++ shown
  | badBoolean shown => shown
  | emptyNumber => "string index out of range"
  | badTimestamp => "'NoneType' object has no attribute 'groupdict'"
  | timestampInParts => "expected string or bytes-like object, got 'list'"
  | endlessText => "maximum recursion depth exceeded"
  | badYear => "year 0 is out of range"
  | badMonth => "month must be in 1..12"
  | badDay => "day is out of range for month"
  | badHour => "hour must be in 0..23"
  | badMinute => "minute must be in 0..59"
  | badSecond => "second must be in 0..59"
  | badOffset shown =>
    "offset must be a timedelta strictly between -timedelta(hours=24) and timedelta(hours=24), not "
      ++ shown ++ "."

end Fault
end Yaml
end NodeSettings
