import NodeSettings.Value.Basic

/-!
This module contains the defaults of the settings of a node, and the values that they admit.
-/

namespace NodeSettings
namespace Setting

def mebibyte : Int := 1024 * 1024

def default : Setting → Value
  | environment => .text "development"
  | logLevel => .text "info"
  | listenAddr => .text "/ip4/0.0.0.0/tcp/4001"
  | bootstrapPeers => .list []
  | maxPeers => .integer 100
  | peerTimeout => .duration (.seconds 30)
  | enableMdns => .boolean true
  | enableNat => .boolean true
  | enableRelay => .boolean false
  | maxContentSize => .integer (10 * mebibyte)
  | maxFileCount => .integer 1000
  | maxPathLength => .integer 255
  | rateLimit => .integer 100
  | banDuration => .duration (.minutes 15)
  | enablePeerValidation => .boolean true
  | enableRateLimiting => .boolean true
  | requireStrongPassphrase => .boolean true
  | maxLoginAttempts => .integer 5
  | sessionTimeout => .duration (.hours 24)
  | dataDir => .text "./data"
  | maxFileSize => .integer (100 * mebibyte)
  | cleanupInterval => .duration (.minutes 5)
  | maxRetries => .integer 3
  | retryDelay => .duration (.milliseconds 100)
  | enableCompression => .boolean true
  | enableEncryption => .boolean true
  | defaultPath => .text "./wallets"
  | backupInterval => .duration (.hours 24)
  | maxSitesPerWallet => .integer 1000
  | enableAutoBackup => .boolean true
  | backupRetention => .integer 30
  | enableMetrics => .boolean true
  | metricsPort => .integer 9090
  | enableProfiling => .boolean false
  | profilingPort => .integer 6060
  | maxMemoryUsage => .integer (100 * mebibyte)
  | garbageCollection => .boolean true

end Setting

/-- The values that a setting of a type can hold. -/
def SettingType.admits : SettingType → Value → Bool
  | text, .text _ => true
  | integer, .integer _ => true
  | boolean, .boolean _ => true
  | duration, .duration _ => true
  | texts, .list items => items.all fun | .text _ => true | _ => false
  | _, _ => false

end NodeSettings
