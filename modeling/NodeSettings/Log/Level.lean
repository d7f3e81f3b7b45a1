import NodeSettings.Text.Blank

/-!
This module contains the levels that a log can be set to by name.
-/

namespace NodeSettings
namespace Log

inductive Threshold where
  | debug | info | warning | error
deriving DecidableEq

namespace Threshold

def number : Threshold → Nat
  | debug => 10
  | info => 20
  | warning => 30
  | error => 40

def name : Threshold → String
  | debug => "DEBUG"
  | info => "INFO"
  | warning => "WARNING"
  | error => "ERROR"

/-- The level of a name, blanks around it and capital letters aside. -/
def ofText? (s : String) : Option Threshold :=
  match String.ofList ((Text.strip s).toList.map Char.toLower) with
  | "debug" => some debug
  | "info" => some info
  | "warn" => some warning
  | "warning" => some warning
  | "error" => some error
  | _ => none

end Threshold
end Log
end NodeSettings
