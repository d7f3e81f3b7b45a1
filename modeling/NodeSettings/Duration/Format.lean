import NodeSettings.Duration.Basic
import NodeSettings.Text.Digit

/-!
This module contains the canonical text of a duration: whole amounts of hours, minutes, seconds,
milliseconds and microseconds, the larger unit first, and none of them zero.
-/

namespace NodeSettings
namespace Duration

inductive TimeUnit where
  | hour | minute | second | millisecond | microsecond
deriving DecidableEq

def TimeUnit.size : TimeUnit → Nat
  | hour => 3600000000
  | minute => 60000000
  | second => 1000000
  | millisecond => 1000
  | microsecond => 1

def TimeUnit.symbol : TimeUnit → String
  | hour => "h"
  | minute => "m"
  | second => "s"
  | millisecond => "ms"
  | microsecond => "us"

def TimeUnit.descending : List TimeUnit :=
  [hour, minute, second, millisecond, microsecond]

/-- The amounts of the units that make up a number of microseconds, each as large as possible. -/
def amounts : List TimeUnit → Nat → List (Nat × TimeUnit)
  | [], _ => []
  | unit :: units, rest =>
    let amount := rest / unit.size
    let parts := amounts units (rest % unit.size)
    if amount = 0 then parts else (amount, unit) :: parts

def partText (part : Nat × TimeUnit) : String :=
  Text.decimal part.1 ++ part.2.symbol

/-- The canonical text of a duration. -/
def format (d : Duration) : String :=
  if d.micros = 0 then "0s"
  else
    (if d.micros < 0 then "-" else "")
      ++ String.join ((amounts TimeUnit.descending d.micros.natAbs).map partText)

end Duration
end NodeSettings
