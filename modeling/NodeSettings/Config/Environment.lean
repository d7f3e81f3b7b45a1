import NodeSettings.Config.Basic
import NodeSettings.Log.Record
import NodeSettings.Text.Blank

/-!
This module contains the configuration that environment variables describe. A variable that is empty
counts as missing, and a number that cannot be read is reported and left out.
-/

namespace NodeSettings

abbrev Environment := List (String × String)

namespace Environment

def textVariables : List (String × Setting) :=
  [("ENV", .environment), ("LOG_LEVEL", .logLevel), ("LISTEN_ADDR", .listenAddr),
    ("DATA_DIR", .dataDir)]

def numberVariables : List (String × Setting) :=
  [("MAX_PEERS", .maxPeers), ("MAX_CONTENT_SIZE", .maxContentSize)]

def peersVariable : String := "BOOTSTRAP_PEERS"

def variableName (leader ending : String) : String :=
  leader ++ "_" ++ ending

def value? (env : Environment) (leader ending : String) : Option String :=
  (env.lookup (variableName leader ending)).filter (· != "")

inductive VariableFault where
  | nul
  | signInName
  | emptyName
deriving DecidableEq

def variableFault? (name value : String) : Option VariableFault :=
  if name.toList.contains '\x00' || value.toList.contains '\x00' then some .nul
  else if name.toList.contains '=' then some .signInName
  else if name.isEmpty then some .emptyName
  else none

/-- Why a process cannot have an environment: the fault of the first variable that has one. -/
def fault? (env : Environment) : Option VariableFault :=
  env.findSome? fun (name, value) => variableFault? name value

inductive NumberReading where
  | number (n : Int)
  | notANumber
  /-- The text has the form of a number, but with more digits than are read. -/
  | tooManyDigits (count : Nat)
deriving DecidableEq

def splitSign : List Char → Bool × List Char
  | '-' :: cs => (true, cs)
  | '+' :: cs => (false, cs)
  | cs => (false, cs)

def minNumber : Int := -9223372036854775808

def maxNumber : Int := 9223372036854775807

/-- The number that a text is: a sign if need be, and digits; it has to fit into 64 bits. -/
def readNumber (s : String) : NumberReading :=
  let (negative, digits) := splitSign s.toList
  if digits.isEmpty || !digits.all Char.isDigit then .notANumber
  else if maxDigits < digits.length then .tooManyDigits digits.length
  else
    let magnitude : Int := Text.decimalValue digits
    let n := if negative then -magnitude else magnitude
    if minNumber ≤ n ∧ n ≤ maxNumber then .number n else .notANumber

def ignoredRecord (name : String) : Log.Record where
  logger := "betanet.config"
  level := Log.debugLevel
  template := "ignoring non-numeric environment value"
  extras :=
    [("event_action", .text "config_env_ignored"),
      ("payload", .map [(.text "variable", .text name)])]

def applyTexts (env : Environment) (leader : String) (c : Config) :
    List (String × Setting) → Config
  | [] => c
  | (ending, s) :: rest =>
    match env.value? leader ending with
    | none => applyTexts env leader c rest
    | some v => applyTexts env leader (c.set s (.text v)) rest

def applyPeers (env : Environment) (leader : String) (c : Config) : Config :=
  match env.value? leader peersVariable with
  | none => c
  | some v =>
    c.set .bootstrapPeers (.list ((Text.entries v).map fun (entry : String) => .text entry))

/--
A configuration with the numbers of variables in it, or the number of digits of one that is too
long; and the reports about the variables that are not numbers.
-/
def applyNumbers (env : Environment) (leader : String) (c : Config) :
    List (String × Setting) → Except Nat Config × List Log.Record
  | [] => (.ok c, [])
  | (ending, s) :: rest =>
    match env.value? leader ending with
    | none => applyNumbers env leader c rest
    | some v =>
      match readNumber v with
      | .number n => applyNumbers env leader (c.set s (.integer n)) rest
      | .tooManyDigits count => (.error count, [])
      | .notANumber =>
        let (result, records) := applyNumbers env leader c rest
        (result, ignoredRecord (variableName leader ending) :: records)

end Environment

def Config.ofEnvironment (env : Environment) (leader : String) :
    Except Nat Config × List Log.Record :=
  let c := env.applyTexts leader default Environment.textVariables
  env.applyNumbers leader (env.applyPeers leader c) Environment.numberVariables

end NodeSettings
