import NodeSettings.Config.Basic
import NodeSettings.Value.Literal

/-!
This module contains the bounds on the values of settings and the check that a configuration keeps
them. The check reports the first bound broken, in the order of the settings.
-/

namespace NodeSettings

inductive Limit where
  | integer (n : Int)
  | duration (d : Duration)
deriving DecidableEq

inductive Comparison where
  | atMost | below | above
deriving DecidableEq

namespace Comparison

def sign : Comparison → String
  | atMost => "<="
  | below => "<"
  | above => ">"

def holds : Comparison → Ordering → Bool
  | atMost, o => o != .gt
  | below, o => o == .lt
  | above, o => o == .gt

end Comparison

inductive Bound where
  | oneOf (label : String) (allowed : List String)
  | nonempty
  | positive (zero : Limit)
  | nonnegative (zero : Limit)
  | limited (limit : Limit) (shown : String)
  | withinZeroAnd (limit : Nat)
deriving DecidableEq

structure Violation where
  sect : Option Section
  rule : Text
deriving DecidableEq

namespace Violation

def message (v : Violation) : Text :=
  match v.sect with
  | none => v.rule
  | some x => (x.name ++ " config: " : String) ++ v.rule

end Violation

inductive ValidationFault where
  | violation (v : Violation)
  | incomparable (comparison : Comparison) (value limit : String)
  | unshowable (fault : LiteralFault)
deriving DecidableEq

def environments : List String :=
  ["development", "staging", "production"]

def logLevels : List String :=
  ["debug", "info", "warn", "error"]

def Setting.bounds : Setting → List Bound
  | environment => [.oneOf "environment" environments]
  | logLevel => [.oneOf "log level" logLevels]
  | maxPeers => [.positive (.integer 0), .limited (.integer 1000) "1000"]
  | peerTimeout => [.positive (.duration .zero), .limited (.duration (.minutes 5)) "5 minutes"]
  | maxContentSize => [.positive (.integer 0), .limited (.integer (1024 * mebibyte)) "1GB"]
  | maxFileCount => [.positive (.integer 0), .limited (.integer 10000) "10000"]
  | maxPathLength => [.positive (.integer 0), .limited (.integer 1024) "1024"]
  | rateLimit => [.positive (.integer 0), .limited (.integer 10000) "10000"]
  | banDuration => [.positive (.duration .zero), .limited (.duration (.hours 24)) "24 hours"]
  | maxLoginAttempts => [.positive (.integer 0), .limited (.integer 100) "100"]
  | sessionTimeout => [.positive (.duration .zero), .limited (.duration (.days 30)) "30 days"]
  | dataDir => [.nonempty]
  | maxFileSize => [.positive (.integer 0), .limited (.integer (1024 * mebibyte)) "1GB"]
  | cleanupInterval => [.positive (.duration .zero), .limited (.duration (.hours 24)) "24 hours"]
  | maxRetries => [.nonnegative (.integer 0), .limited (.integer 100) "100"]
  | retryDelay =>
    [.nonnegative (.duration .zero), .limited (.duration (.seconds 10)) "10 seconds"]
  | defaultPath => [.nonempty]
  | backupInterval => [.positive (.duration .zero), .limited (.duration (.days 7)) "1 week"]
  | maxSitesPerWallet => [.positive (.integer 0), .limited (.integer 10000) "10000"]
  | backupRetention => [.nonnegative (.integer 0), .limited (.integer 365) "365"]
  | metricsPort => [.withinZeroAnd 65535]
  | profilingPort => [.withinZeroAnd 65535]
  | maxMemoryUsage =>
    [.positive (.integer 0), .limited (.integer (1024 * 1024 * mebibyte)) "1TB"]
  | listenAddr | bootstrapPeers | enableMdns | enableNat | enableRelay | enablePeerValidation
  | enableRateLimiting | requireStrongPassphrase | enableCompression | enableEncryption
  | enableAutoBackup | enableMetrics | enableProfiling | garbageCollection => []

namespace Bound

/-- The order of a value and a limit. An undefined float has none, so no comparison holds of it. -/
def order? : Value → Limit → Except (String × String) (Option Ordering)
  | .boolean b, .integer n => return some (compare (if b then 1 else 0) n)
  | .integer m, .integer n => return some (compare m n)
  | .float x, .integer n => return x.compareInt? n
  | .undefined _, .integer _ => return none
  | .duration d, .duration e => return some (compare d.micros e.micros)
  | v, .integer _ => throw (v.typeName, "int")
  | v, .duration d => throw (v.typeName, (Value.duration d).typeName)

def compared (c : Comparison) (v : Value) (limit : Limit) : Except ValidationFault Bool :=
  match order? v limit with
  | .ok (some o) => return c.holds o
  | .ok none => return false
  | .error (left, right) => throw (.incomparable c left right)

def broken? (name : String) (v : Value) : Bound → Except ValidationFault (Option Text)
  | oneOf label allowed =>
    if allowed.any fun a => v.equal (.text a) then return none
    else
      match v.plain with
      | .ok shown =>
        let allowed := " (must be one of: " ++ ", ".intercalate allowed ++ ")"
        return some (("invalid " ++ label ++ ": " : String) ++ shown ++ allowed)
      | .error e => throw (.unshowable e)
  | nonempty => return if v.isTruthy then none else some (name ++ " cannot be empty")
  | positive zero => do
    return if ← compared .atMost v zero then some (name ++ " must be positive") else none
  | nonnegative zero => do
    return if ← compared .below v zero then some (name ++ " cannot be negative") else none
  | limited limit shown => do
    return if ← compared .above v limit then some (name ++ " too high (max " ++ shown ++ ")")
      else none
  | withinZeroAnd limit => do
    let outside := name ++ " must be between 0 and " ++ Text.decimal limit
    if ← compared .below v (.integer 0) then return some outside
    return if ← compared .above v (.integer limit) then some outside else none

end Bound

namespace Config

def checkBounds (sect : Option Section) (name : String) (v : Value) :
    List Bound → Except ValidationFault Unit
  | [] => return ()
  | bound :: bounds =>
    match bound.broken? name v with
    | .error e => throw e
    | .ok (some rule) => throw (.violation ⟨sect, rule⟩)
    | .ok none => checkBounds sect name v bounds

/-- Settings keep their bounds, checked one by one; a violation is reported with its section. -/
def checkSettings (c : Config) (report : Setting → Option Section) :
    List Setting → Except ValidationFault Unit
  | [] => return ()
  | s :: settings => do
    checkBounds (report s) s.name (c.get s) s.bounds
    checkSettings c report settings

def validate (c : Config) : Except ValidationFault Unit :=
  c.checkSettings Setting.owner Setting.all

/-- The settings of one section keep their bounds; a violation is reported without the section. -/
def validateSection (c : Config) (x : Section) : Except ValidationFault Unit :=
  c.checkSettings (fun _ => none) x.settings

end Config
end NodeSettings
