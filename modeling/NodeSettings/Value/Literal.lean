import NodeSettings.Binary64.Decimal
import NodeSettings.Text.Quoted
import NodeSettings.Value.Basic

/-!
This module contains the texts that messages show for values. The literal of a value says what its
type is; its plain form is the literal except that texts, durations and dates show their content,
and objects what they show.
-/

namespace NodeSettings

/-- A text is a literal, or an integer in it has too many digits to be written. -/
inductive LiteralFault where
  | tooManyDigits
deriving DecidableEq

def maxDigits : Nat := 4300

def integerText (n : Int) : Except LiteralFault String :=
  if Nat.pow 10 maxDigits ≤ n.natAbs then throw .tooManyDigits else return Text.integer n

def CivilDate.text (d : CivilDate) : String :=
  Text.padded 4 d.year ++ "-" ++ Text.padded 2 d.month ++ "-" ++ Text.padded 2 d.day

def offsetText (seconds : Int) : String :=
  (if seconds < 0 then "-" else "+") ++ Text.padded 2 (seconds.natAbs / 3600) ++ ":"
    ++ Text.padded 2 (seconds.natAbs / 60 % 60)
    ++ (if seconds.natAbs % 60 = 0 then "" else ":" ++ Text.padded 2 (seconds.natAbs % 60))

def Moment.text (between : String) (m : Moment) : String :=
  m.date.text ++ between ++ Text.padded 2 m.hour ++ ":" ++ Text.padded 2 m.minute ++ ":"
    ++ Text.padded 2 m.second ++ (if m.micros = 0 then "" else "." ++ Text.padded 6 m.micros)
    ++ (match m.offset with
      | none => ""
      | some seconds => offsetText seconds)

def Duration.clockText (d : Duration) : String :=
  let days := d.wholeDays
  let unit := if days.natAbs = 1 then " day, " else " days, "
  let seconds := d.restSeconds
  (if days = 0 then "" else Text.integer days ++ unit)
    ++ Text.decimal (seconds / 3600) ++ ":" ++ Text.padded 2 (seconds / 60 % 60) ++ ":"
    ++ Text.padded 2 (seconds % 60)
    ++ (if d.restMicros = 0 then "" else "." ++ Text.padded 6 d.restMicros)

def Duration.literal (d : Duration) : String :=
  let part (name : String) (n : Int) : List String :=
    if n = 0 then [] else [name ++ "=" ++ Text.integer n]
  let parts := part "days" d.wholeDays ++ part "seconds" d.restSeconds
    ++ part "microseconds" d.restMicros
  "datetime.timedelta(" ++ (if parts.isEmpty then "0" else ", ".intercalate parts) ++ ")"

def quotedOctet (quote : Char) (n : Nat) : List Char :=
  let c := Char.ofNat n
  if c == quote || c == '\\' then ['\\', c]
  else if c == '\n' then ['\\', 'n']
  else if c == '\r' then ['\\', 'r']
  else if c == '\t' then ['\\', 't']
  else if 32 ≤ n && n < 127 then [c]
  else '\\' :: 'x' :: Text.hexadecimal 2 n

def bytesLiteral (octets : List Nat) : String :=
  let quote := Text.quoteFor (octets.map Char.ofNat)
  String.ofList ('b' :: quote :: octets.flatMap (quotedOctet quote) ++ [quote])

namespace Value

def dateLiteral (d : CivilDate) : String :=
  "datetime.date(" ++ ", ".intercalate ([d.year, d.month, d.day].map Text.decimal) ++ ")"

def zoneLiteral (seconds : Int) : String :=
  if seconds = 0 then "datetime.timezone.utc"
  else
    match Duration.ofMicros? (seconds * 1000000) with
    | some d => "datetime.timezone(" ++ d.literal ++ ")"
    | none => "datetime.timezone.utc"

def momentLiteral (m : Moment) : String :=
  let least := [m.date.year, m.date.month, m.date.day, m.hour, m.minute]
  let numbers :=
    least ++ (if m.micros != 0 then [m.second, m.micros]
      else if m.second != 0 then [m.second] else [])
  "datetime.datetime(" ++ ", ".intercalate (numbers.map Text.decimal)
    ++ (match m.offset with
      | none => ""
      | some seconds => ", tzinfo=" ++ zoneLiteral seconds) ++ ")"

mutual

def literal : Value → Except LiteralFault String
  | null => return "None"
  | boolean b => return if b then "True" else "False"
  | integer n => integerText n
  | float x => return x.text
  | undefined _ => return Binary64.nan.text
  | text s => return Text.quoted s
  | duration d => return d.literal
  | foreign o => return o.literal
  | list xs => return "[" ++ ", ".intercalate (← literals xs) ++ "]"
  | tuple xs => do
    let items ← literals xs
    return "(" ++ ", ".intercalate items ++ (if items.length = 1 then ",)" else ")")
  | map xs => return "\x7b" ++ ", ".intercalate (← entryLiterals xs) ++ "\x7d"
  | bytes octets => return bytesLiteral octets
  | date d => return dateLiteral d
  | moment m => return momentLiteral m
  | set xs => do
    let items ← literals xs
    return if items.isEmpty then "set()" else "\x7b" ++ ", ".intercalate items ++ "\x7d"

def literals : List Value → Except LiteralFault (List String)
  | [] => return []
  | x :: xs => return (← literal x) :: (← literals xs)

def entryLiterals : List (Value × Value) → Except LiteralFault (List String)
  | [] => return []
  | (k, x) :: xs => do
    let key ← literal k
    let value ← literal x
    return (key ++ ": " ++ value) :: (← entryLiterals xs)

end

/-- The plain form of a value. -/
def plain : Value → Except LiteralFault Text
  | text t => return t
  | duration d => return d.clockText
  | date d => return d.text
  | moment m => return m.text " "
  | foreign o => return o.plain
  | v => return (← v.literal)

end Value
end NodeSettings
