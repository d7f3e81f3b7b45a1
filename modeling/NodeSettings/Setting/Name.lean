import NodeSettings.Text.Basic

/-!
This module contains the settings of a node by name, the sections they are grouped in, and the types
of their values.
-/

namespace NodeSettings

inductive Section where
  | network | security | storage | wallet | node
deriving DecidableEq

namespace Section

def all : List Section :=
  [network, security, storage, wallet, node]

theorem mem_all (x : Section) : x ∈ all := by
  cases x <;> decide

def name : Section → String
  | network => "network"
  | security => "security"
  | storage => "storage"
  | wallet => "wallet"
  | node => "node"

def ofName? (s : String) : Option Section :=
  all.find? (·.name == s)

end Section

inductive SettingType where
  | text | integer | boolean | duration | texts
deriving DecidableEq

inductive Setting where
  | environment | logLevel
  | listenAddr | bootstrapPeers | maxPeers | peerTimeout | enableMdns | enableNat | enableRelay
  | maxContentSize | maxFileCount | maxPathLength | rateLimit | banDuration | enablePeerValidation
  | enableRateLimiting | requireStrongPassphrase | maxLoginAttempts | sessionTimeout
  | dataDir | maxFileSize | cleanupInterval | maxRetries | retryDelay | enableCompression
  | enableEncryption
  | defaultPath | backupInterval | maxSitesPerWallet | enableAutoBackup | backupRetention
  | enableMetrics | metricsPort | enableProfiling | profilingPort | maxMemoryUsage
  | garbageCollection
deriving DecidableEq

namespace Setting

def general : List Setting :=
  [environment, logLevel]

end Setting

def Section.settings : Section → List Setting
  | network =>
    [.listenAddr, .bootstrapPeers, .maxPeers, .peerTimeout, .enableMdns, .enableNat, .enableRelay]
  | security =>
    [.maxContentSize, .maxFileCount, .maxPathLength, .rateLimit, .banDuration,
      .enablePeerValidation, .enableRateLimiting, .requireStrongPassphrase, .maxLoginAttempts,
      .sessionTimeout]
  | storage =>
    [.dataDir, .maxFileSize, .cleanupInterval, .maxRetries, .retryDelay, .enableCompression,
      .enableEncryption]
  | wallet =>
    [.defaultPath, .backupInterval, .maxSitesPerWallet, .enableAutoBackup, .backupRetention]
  | node =>
    [.enableMetrics, .metricsPort, .enableProfiling, .profilingPort, .maxMemoryUsage,
      .garbageCollection]

namespace Setting

def all : List Setting :=
  general ++ Section.all.flatMap Section.settings

theorem mem_all (s : Setting) : s ∈ all := by
  cases s <;> decide

def owner : Setting → Option Section
  | environment | logLevel => none
  | listenAddr | bootstrapPeers | maxPeers | peerTimeout | enableMdns | enableNat | enableRelay =>
    some .network
  | maxContentSize | maxFileCount | maxPathLength | rateLimit | banDuration
  | enablePeerValidation | enableRateLimiting | requireStrongPassphrase | maxLoginAttempts
  | sessionTimeout => some .security
  | dataDir | maxFileSize | cleanupInterval | maxRetries | retryDelay | enableCompression
  | enableEncryption => some .storage
  | defaultPath | backupInterval | maxSitesPerWallet | enableAutoBackup | backupRetention =>
    some .wallet
  | enableMetrics | metricsPort | enableProfiling | profilingPort | maxMemoryUsage
  | garbageCollection => some .node

theorem owner_eq_some_iff {s : Setting} {x : Section} : s.owner = some x ↔ s ∈ x.settings := by
  cases s <;> cases x <;> decide

theorem owner_eq_none_iff {s : Setting} : s.owner = none ↔ s ∈ general := by
  cases s <;> decide

def name : Setting → String
  | environment => "environment"
  | logLevel => "log_level"
  | listenAddr => "listen_addr"
  | bootstrapPeers => "bootstrap_peers"
  | maxPeers => "max_peers"
  | peerTimeout => "peer_timeout"
  | enableMdns => "enable_mdns"
  | enableNat => "enable_nat"
  | enableRelay => "enable_relay"
  | maxContentSize => "max_content_size"
  | maxFileCount => "max_file_count"
  | maxPathLength => "max_path_length"
  | rateLimit => "rate_limit"
  | banDuration => "ban_duration"
  | enablePeerValidation => "enable_peer_validation"
  | enableRateLimiting => "enable_rate_limiting"
  | requireStrongPassphrase => "require_strong_passphrase"
  | maxLoginAttempts => "max_login_attempts"
  | sessionTimeout => "session_timeout"
  | dataDir => "data_dir"
  | maxFileSize => "max_file_size"
  | cleanupInterval => "cleanup_interval"
  | maxRetries => "max_retries"
  | retryDelay => "retry_delay"
  | enableCompression => "enable_compression"
  | enableEncryption => "enable_encryption"
  | defaultPath => "default_path"
  | backupInterval => "backup_interval"
  | maxSitesPerWallet => "max_sites_per_wallet"
  | enableAutoBackup => "enable_auto_backup"
  | backupRetention => "backup_retention"
  | enableMetrics => "enable_metrics"
  | metricsPort => "metrics_port"
  | enableProfiling => "enable_profiling"
  | profilingPort => "profiling_port"
  | maxMemoryUsage => "max_memory_usage"
  | garbageCollection => "garbage_collection"

def path (s : Setting) : String :=
  match s.owner with
  | none => s.name
  | some x => x.name ++ "." ++ s.name

def type : Setting → SettingType
  | environment | logLevel | listenAddr | dataDir | defaultPath => .text
  | bootstrapPeers => .texts
  | maxPeers | maxContentSize | maxFileCount | maxPathLength | rateLimit | maxLoginAttempts
  | maxFileSize | maxRetries | maxSitesPerWallet | backupRetention | metricsPort | profilingPort
  | maxMemoryUsage => .integer
  | enableMdns | enableNat | enableRelay | enablePeerValidation | enableRateLimiting
  | requireStrongPassphrase | enableCompression | enableEncryption | enableAutoBackup
  | enableMetrics | enableProfiling | garbageCollection => .boolean
  | peerTimeout | banDuration | sessionTimeout | cleanupInterval | retryDelay | backupInterval =>
    .duration

def find? (owner : Option Section) (name : String) : Option Setting :=
  let candidates :=
    match owner with
    | none => general
    | some x => x.settings
  candidates.find? (·.name == name)

end Setting

def names : List Text :=
  (Section.all.map Section.name ++ Setting.all.map Setting.name).map Text.ofString

end NodeSettings
