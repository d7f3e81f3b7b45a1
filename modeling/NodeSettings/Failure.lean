import NodeSettings.Config.Environment
import NodeSettings.Config.Key
import NodeSettings.Config.Overlay
import NodeSettings.FileSystem.Basic
import NodeSettings.Log.Record
import NodeSettings.Text.Utf8
import NodeSettings.Yaml.Fault

/-!
This module contains the failures of all operations: their causes, the names of their kinds and
their messages.
-/

namespace NodeSettings

inductive Failure where
  | duration (fault : Duration.ReadFault)
  | durationRange (micros : Int)
  | overlay (fault : OverlayFault)
  | validation (fault : ValidationFault)
  | key (fault : KeyFault)
  | badVariable (fault : Environment.VariableFault)
  | longNumber (count : Nat)
  | unreadable (path : Path) (fault : FileFault)
  | unparsable (path : Path)
  /-- The file of a configuration has a scalar that is not what it looks like. -/
  | badScalar (fault : Yaml.Fault)
  | unserializable (path : Path)
  | unwritable (path : Path) (fault : FileFault)
  | alreadyThere (path : Path)
  | file (path : Text) (fault : FileFault)
  | notUtf8 (fault : Text.Utf8Fault)
  | unshowable (fault : LiteralFault)
  | badLevel (name : String)
  | badSink (name : String)
  /-- A record is given something under a name that records use themselves. -/
  | reservedName (name : String)
  | line (fault : Log.LineFault)
  | cannotSet (name : String)
  | cannotDelete (name : String)
  | noAttribute (typeName name : String)
  /-- What is to be deleted has been deleted already. -/
  | unset (name : String)
  /-- What all objects of a type have under a name is not assigned to. -/
  | readOnly (typeName name : String)
  | computed (typeName name : String)
  /-- What an object of a type has under a name is computed, with nothing to change it by. -/
  | property (typeName name missing : String)
  | fixed
  | noFields
  | unhashable (typeName : String)
  | emptySlot (name : String)
deriving DecidableEq

namespace Failure

def literalMessage : LiteralFault → String
  | .tooManyDigits =>
    "Exceeds the limit (" ++ Text.decimal maxDigits
      ++ " digits) for integer string conversion; use sys.set_int_max_str_digits() to increase the "
      ++ "limit"

def durationMessage : Duration.ReadFault → String
  | .invalid shown | .outOfRange shown => "invalid duration " ++ shown
  | .belowPrecision shown => "duration " ++ shown ++ " is below microsecond precision"
  | .undefined => "cannot convert float NaN to integer"
  | .unshowable fault => literalMessage fault

def expectedMessage : Expected → String
  | .text => "must be a string"
  | .integer => "must be an integer"
  | .boolean => "must be a boolean"
  | .texts => "must be a list"
  | .object => "must be an object"
  | .duration _ => "must be a duration such as '30s' or '5m'"

def shownPoint (p : CodePoint) : String :=
  match p with
  | .char c => if 31 ≤ c.toNat && c.toNat < 127 then String.singleton c else "?"
  | .surrogate _ => "?"

def templateMessage : Log.MessageFault → String
  | .notANumber conversion typeName =>
    "%" ++ String.singleton conversion ++ " format: a real number is required, not " ++ typeName
  | .notAnInteger conversion typeName =>
    "%" ++ String.singleton conversion ++ " format: an integer is required, not " ++ typeName
  | .notAFloat typeName => "must be real number, not " ++ typeName
  | .notWhole infinite =>
    "cannot convert float " ++ (if infinite then "infinity" else "NaN") ++ " to integer"
  | .beyondFloats => "int too large to convert to float"
  | .notACharacter => "%c requires int or char"
  | .beyondCharacters => "%c arg not in range(0x110000)"
  | .notAWidth => "* wants int"
  | .hugeWidth => "width too big"
  | .hugePrecision => "precision too big"
  | .widthBeyond => "Python int too large to convert to C ssize_t"
  | .precisionBeyond => "Python int too large to convert to C int"
  | .tooManyPlaces => "precision too large"
  | .tooMany => "not all arguments converted during string formatting"
  | .tooFew => "not enough arguments for format string"
  | .unfinished => "incomplete format"
  | .unfinishedName => "incomplete format key"
  | .noNames => "format requires a mapping"
  | .unknownName name => Text.quoted name
  | .nameInList => "list indices must be integers or slices, not str"
  | .unknownConversion p index =>
    "unsupported format character '" ++ shownPoint p ++ "' (0x"
      ++ String.ofList (Text.hexadecimal 0 p.toNat) ++ ") at index " ++ Text.decimal index
  | .unshowable fault => literalMessage fault

def lineMessage : Log.LineFault → String
  | .message fault => templateMessage fault
  | .encoding (.literal fault) => literalMessage fault
  | .encoding (.badKey typeName) =>
    "keys must be str, int, float, bool or None, not " ++ typeName
  | .badYear year => "year " ++ Text.integer year ++ " is out of range"
  | .hugeYear => "[Errno 75] Value too large for defined data type"
  | .hugeTime => "timestamp out of range for platform time_t"
  | .beyondFloats => "integer division result too large for a float"
  | .undefinedTime => "Invalid value NaN (not a number)"
  | .notATime typeName => "'" ++ typeName ++ "' object cannot be interpreted as an integer"
  | .notALevel typeName => "'" ++ typeName ++ "' object has no attribute 'lower'"
  | .notAnError typeName => "'" ++ typeName ++ "' object is not subscriptable"
  | .unshowable fault => literalMessage fault

def variableMessage : Environment.VariableFault → String
  | .nul => "embedded null byte"
  | .signInName => "illegal environment variable name"
  | .emptyName => "[Errno 22] Invalid argument"

def rangeMessage (micros : Int) : String :=
  let days := Duration.daysOf micros
  if days < -0x80000000 || 0x7FFFFFFF < days then "Python int too large to convert to C int"
  else "days=" ++ Text.integer days ++ "; must have magnitude <= 999999999"

def message : Failure → Text
  | duration fault => durationMessage fault
  | durationRange micros => rangeMessage micros
  | overlay .notAMapping => "config document must be a mapping"
  | overlay (.mistyped path expected) => "'" ++ path ++ "' " ++ expectedMessage expected
  | overlay (.unnameable fault) => literalMessage fault
  | validation (.violation v) => v.message
  | validation (.incomparable comparison left right) =>
    "'" ++ comparison.sign ++ "' not supported between instances of '" ++ left ++ "' and '"
      ++ right ++ "'"
  | validation (.unshowable fault) => literalMessage fault
  | key (.unknown name) => Text.quoted ("unknown config key '" ++ name ++ "'" : String)
  | key (.wrongKind name kind) =>
    "config key '" ++ name ++ "' expects a " ++ kind.name ++ " value"
  | badVariable fault => variableMessage fault
  | longNumber count => Yaml.Fault.message (.tooManyDigits count)
  | unreadable path fault =>
    ("failed to read config file: " : Text) ++ path.text
      ++ (": " ++ fault.message path.text : String)
  | unparsable path => ("failed to parse config file: " : Text) ++ path.text
  | badScalar fault => fault.message
  | unserializable _ => "failed to serialize config"
  | unwritable path fault =>
    ("failed to write config file: " : Text) ++ path.text
      ++ (": " ++ fault.message path.text : String)
  | alreadyThere path => ("config already exists: " : Text) ++ path.text
  | file path fault => fault.message path
  | notUtf8 fault => fault.message
  | unshowable fault => literalMessage fault
  | badLevel name => "invalid log level '" ++ name ++ "'"
  | badSink name => "invalid log sink '" ++ name ++ "'"
  | reservedName name =>
    Text.quoted ("Attempt to overwrite " ++ Text.quoted name ++ " in LogRecord" : String)
  | line fault => lineMessage fault
  | cannotSet name => "config is read-only; cannot set '" ++ name ++ "'"
  | cannotDelete name => "config is read-only; cannot delete '" ++ name ++ "'"
  | noAttribute typeName name =>
    "'" ++ typeName ++ "' object has no attribute '" ++ name ++ "'"
  | unset name => name
  | readOnly typeName name =>
    "'" ++ typeName ++ "' object attribute '" ++ name ++ "' is read-only"
  | computed typeName name =>
    "attribute '" ++ name ++ "' of '" ++ typeName ++ "' objects is not writable"
  | property typeName name missing =>
    "property '" ++ name ++ "' of '" ++ typeName ++ "' object has no " ++ missing
  | fixed => "readonly attribute"
  | noFields => "must be called with a dataclass type or instance"
  | unhashable typeName => "unhashable type: '" ++ typeName ++ "'"
  | emptySlot name => name

def scalarKind : Yaml.Fault → String
  | .hugeCharacter => "OverflowError"
  | .emptyNumber => "IndexError"
  | .badBoolean _ => "KeyError"
  | .badTimestamp => "AttributeError"
  | .timestampInParts => "TypeError"
  | .endlessText => "RecursionError"
  | .malformed => "YAMLError"
  | _ => "ValueError"

def templateKind : Log.MessageFault → String
  | .notWhole true | .beyondFloats | .beyondCharacters | .widthBeyond | .precisionBeyond
  | .tooManyPlaces => "OverflowError"
  | .notWhole false | .hugeWidth | .hugePrecision | .unfinished | .unfinishedName
  | .unknownConversion .. | .unshowable _ =>
    "ValueError"
  | .unknownName _ => "KeyError"
  | .notANumber .. | .notAnInteger .. | .notAFloat _ | .notACharacter | .notAWidth | .tooMany
  | .tooFew | .noNames | .nameInList => "TypeError"

def lineKind : Log.LineFault → String
  | .message fault => templateKind fault
  | .encoding (.badKey _) | .notATime _ | .notAnError _ => "TypeError"
  | .notALevel _ => "AttributeError"
  | .hugeYear => "OSError"
  | .hugeTime | .beyondFloats => "OverflowError"
  | .encoding (.literal _) | .badYear _ | .undefinedTime | .unshowable _ => "ValueError"

def kind : Failure → String
  | duration _ => "ValueError"
  | durationRange _ => "OverflowError"
  | overlay (.unnameable _) => "ValueError"
  | overlay _ => "ConfigParseError"
  | validation (.violation _) => "ConfigValidationError"
  | validation (.incomparable ..) => "TypeError"
  | validation (.unshowable _) => "ValueError"
  | key (.unknown _) => "KeyError"
  | key (.wrongKind ..) => "TypeError"
  | badVariable .emptyName => "OSError"
  | badVariable _ => "ValueError"
  | longNumber _ => "ValueError"
  | unreadable .. => "ConfigIOError"
  | unparsable _ => "ConfigParseError"
  | badScalar fault => scalarKind fault
  | unserializable _ => "ConfigIOError"
  | unwritable .. => "ConfigIOError"
  | alreadyThere _ => "FileExistsError"
  | file _ fault => fault.kind
  | notUtf8 _ => "UnicodeDecodeError"
  | unshowable _ => "ValueError"
  | badLevel _ => "ValueError"
  | badSink _ => "ValueError"
  | reservedName _ => "KeyError"
  | line fault => lineKind fault
  | cannotSet _ => "AttributeError"
  | cannotDelete _ => "AttributeError"
  | noAttribute .. => "AttributeError"
  | unset _ => "AttributeError"
  | readOnly .. => "AttributeError"
  | computed .. => "AttributeError"
  | property .. => "AttributeError"
  | fixed => "AttributeError"
  | noFields => "TypeError"
  | unhashable _ => "TypeError"
  | emptySlot _ => "NoSlot"

def cause? : Failure → Option String
  | duration (.outOfRange _) => some "OverflowError"
  | overlay (.mistyped _ (.duration _)) => some "ValueError"
  | validation (.violation v) => if v.sect.isSome then some "ConfigValidationError" else none
  | unreadable _ fault => some fault.kind
  | unparsable _ => some "YAMLError"
  | unserializable _ => some "YAMLError"
  | unwritable _ fault => some fault.kind
  | _ => none

def violation? : Failure → Option Violation
  | validation (.violation v) => some v
  | _ => none

def configPath? : Failure → Option Path
  | unreadable path _ => some path
  | unserializable path => some path
  | unwritable path _ => some path
  | _ => none

def note (f : Failure) : Log.ErrorNote :=
  ⟨f.kind, f.message⟩

end Failure
end NodeSettings
