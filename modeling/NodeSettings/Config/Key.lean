import NodeSettings.Config.Basic

/-!
This module contains the keys: short names under which some of the settings can be read and given a
value. A reader with a key of another kind, or with no key at all, gets a fallback.
-/

namespace NodeSettings

inductive Kind where
  | text | integer | boolean | duration
deriving DecidableEq

namespace Kind

def all : List Kind :=
  [text, integer, boolean, duration]

def name : Kind → String
  | text => "string"
  | integer => "int"
  | boolean => "bool"
  | duration => "duration"

def ofName? (s : String) : Option Kind :=
  all.find? (·.name == s)

def type : Kind → SettingType
  | text => .text
  | integer => .integer
  | boolean => .boolean
  | duration => .duration

end Kind

/-- A setting that can be reached by its name alone. -/
structure Key where
  kind : Kind
  setting : Setting
deriving DecidableEq

namespace Key

def name (k : Key) : String :=
  k.setting.name

def all : List Key :=
  [⟨.text, .environment⟩, ⟨.text, .logLevel⟩, ⟨.text, .listenAddr⟩, ⟨.text, .dataDir⟩,
    ⟨.integer, .maxPeers⟩, ⟨.integer, .maxContentSize⟩, ⟨.integer, .maxFileCount⟩,
    ⟨.integer, .rateLimit⟩, ⟨.integer, .maxRetries⟩, ⟨.integer, .maxSitesPerWallet⟩,
    ⟨.integer, .metricsPort⟩, ⟨.integer, .profilingPort⟩,
    ⟨.boolean, .enableMdns⟩, ⟨.boolean, .enableNat⟩, ⟨.boolean, .enablePeerValidation⟩,
    ⟨.boolean, .enableRateLimiting⟩, ⟨.boolean, .enableCompression⟩, ⟨.boolean, .enableEncryption⟩,
    ⟨.boolean, .enableAutoBackup⟩, ⟨.boolean, .enableMetrics⟩, ⟨.boolean, .enableProfiling⟩,
    ⟨.boolean, .garbageCollection⟩,
    ⟨.duration, .peerTimeout⟩, ⟨.duration, .banDuration⟩, ⟨.duration, .sessionTimeout⟩,
    ⟨.duration, .cleanupInterval⟩, ⟨.duration, .retryDelay⟩, ⟨.duration, .backupInterval⟩]

def find? (name : String) : Option Key :=
  all.find? (·.name == name)

/-- The key of a name, if it is of a kind. -/
def lookup? (name : String) (kind : Kind) : Option Key :=
  (find? name).filter (·.kind == kind)

def names (kind : Option Kind) : List String :=
  (all.filter fun k => kind.all (· == k.kind)).map name

end Key

inductive KeyFault where
  | unknown (name : String)
  | wrongKind (name : String) (kind : Kind)
deriving DecidableEq

/-- The key of a name that may be given a value; every key takes values of its kind only. -/
def Key.accepting (name : String) (v : Value) : Except KeyFault Key :=
  match find? name with
  | none => throw (.unknown name)
  | some k => if k.kind.type.admits v then return k else throw (.wrongKind name k.kind)

namespace Config

/-- The value behind a key of a kind, or the fallback where there is no such key. -/
def getKey (c : Config) (kind : Kind) (name : String) (fallback : Value) : Value :=
  match Key.lookup? name kind with
  | some k => c.get k.setting
  | none => fallback

def setKey (c : Config) (name : String) (v : Value) : Except KeyFault Config :=
  (Key.accepting name v).map fun k => c.set k.setting v

end Config
end NodeSettings
