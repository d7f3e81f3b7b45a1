import NodeSettings.Config.Validation
import NodeSettings.Proofs.Except
import NodeSettings.Proofs.Text

/-!
This module contains the ranges of the values of settings, and that a configuration of the right
types is valid if and only if every value lies in its range.
-/

namespace NodeSettings

inductive ValueRange where
  | everything
  | oneOf (allowed : List String)
  | nonempty
  | integers (low high : Int)
  | durations (low high : Int)

namespace ValueRange

def Contains : ValueRange → Value → Prop
  | everything, _ => True
  | oneOf allowed, v => ∃ a ∈ allowed, v = .text (a : Text)
  | nonempty, v => ∃ t, v = .text t ∧ t.points ≠ []
  | integers low high, v => ∃ n, v = .integer n ∧ low ≤ n ∧ n ≤ high
  | durations low high, v => ∃ d, v = .duration d ∧ low ≤ d.micros ∧ d.micros ≤ high

end ValueRange

def Setting.range : Setting → ValueRange
  | environment => .oneOf ["development", "staging", "production"]
  | logLevel => .oneOf ["debug", "info", "warn", "error"]
  | maxPeers => .integers 1 1000
  | peerTimeout => .durations 1 300000000
  | maxContentSize => .integers 1 1073741824
  | maxFileCount => .integers 1 10000
  | maxPathLength => .integers 1 1024
  | rateLimit => .integers 1 10000
  | banDuration => .durations 1 86400000000
  | maxLoginAttempts => .integers 1 100
  | sessionTimeout => .durations 1 2592000000000
  | dataDir => .nonempty
  | maxFileSize => .integers 1 1073741824
  | cleanupInterval => .durations 1 86400000000
  | maxRetries => .integers 0 100
  | retryDelay => .durations 0 10000000
  | defaultPath => .nonempty
  | backupInterval => .durations 1 604800000000
  | maxSitesPerWallet => .integers 1 10000
  | backupRetention => .integers 0 365
  | metricsPort => .integers 0 65535
  | profilingPort => .integers 0 65535
  | maxMemoryUsage => .integers 1 1099511627776
  | listenAddr | bootstrapPeers | enableMdns | enableNat | enableRelay | enablePeerValidation
  | enableRateLimiting | requireStrongPassphrase | enableCompression | enableEncryption
  | enableAutoBackup | enableMetrics | enableProfiling | garbageCollection => .everything

namespace Comparison

theorem holds_atMost (m n : Int) : atMost.holds (compare m n) = decide (m ≤ n) := by
  rw [Bool.eq_iff_iff]
  simp [holds, Int.compare_eq_gt]

theorem holds_below (m n : Int) : below.holds (compare m n) = decide (m < n) := by
  rw [Bool.eq_iff_iff]
  simp [holds, Int.compare_eq_lt]

theorem holds_above (m n : Int) : above.holds (compare m n) = decide (n < m) := by
  rw [Bool.eq_iff_iff]
  simp [holds, Int.compare_eq_gt]

end Comparison

/-- A bound tells of the value of a name whether it is broken, and with which text. -/
def Bound.Tells (b : Bound) (name : String) (v : Value) (broken : Bool) (rule : Text) : Prop :=
  b.broken? name v = .ok (if broken then some rule else none)

namespace Config

def Decides (bounds : List Bound) (range : ValueRange) (v : Value) : Prop :=
  ∀ sect name,
    (range.Contains v ∧ checkBounds sect name v bounds = .ok ())
      ∨ (¬ range.Contains v
        ∧ ∃ rule, checkBounds sect name v bounds = .error (.violation ⟨sect, rule⟩))

theorem compared_integer (m n : Int) (c : Comparison) :
    Bound.compared c (.integer m) (.integer n) = .ok (c.holds (compare m n)) := rfl

theorem compared_duration (d e : Duration) (c : Comparison) :
    Bound.compared c (.duration d) (.duration e) = .ok (c.holds (compare d.micros e.micros)) := rfl

section

variable {v : Value} {zero limit : Limit} {range : ValueRange} {m low high : Int}

theorem tells_positive (hzero : ∀ c, Bound.compared c v zero = .ok (c.holds (compare m 0)))
    (name : String) :
    (Bound.positive zero).Tells name v (m < 1) (name ++ " must be positive") := by
  have hpositive : m < 1 ↔ m ≤ 0 := by omega
  unfold Bound.Tells
  simp [Bound.broken?, hzero, Comparison.holds_atMost, hpositive]

theorem tells_nonnegative (hzero : ∀ c, Bound.compared c v zero = .ok (c.holds (compare m 0)))
    (name : String) :
    (Bound.nonnegative zero).Tells name v (m < 0) (name ++ " cannot be negative") := by
  unfold Bound.Tells
  simp [Bound.broken?, hzero, Comparison.holds_below]

theorem tells_limited (hlimit : ∀ c, Bound.compared c v limit = .ok (c.holds (compare m high)))
    (shown name : String) :
    (Bound.limited limit shown).Tells name v (high < m)
      (name ++ " too high (max " ++ shown ++ ")") := by
  unfold Bound.Tells
  simp [Bound.broken?, hlimit, Comparison.holds_above]

theorem tells_withinZeroAnd (n : Int) (limit : Nat) (name : String) :
    (Bound.withinZeroAnd limit).Tells name (.integer n) (n < 0 || limit < n)
      (name ++ " must be between 0 and " ++ Text.decimal limit : String) := by
  unfold Bound.Tells
  simp only [Bound.broken?, compared_integer, Comparison.holds_below, Comparison.holds_above,
    Except.ok_bind]
  by_cases hlow : n < 0
  . simp [hlow]
  . simp [hlow]

theorem tells_nonempty (t : Text) (name : String) :
    Bound.nonempty.Tells name (.text t) t.isEmpty (name ++ " cannot be empty") := by
  unfold Bound.Tells
  cases hempty : t.isEmpty <;> simp [Bound.broken?, Value.isTruthy, hempty]

theorem tells_oneOf (label : String) (allowed : List String) (t : Text) (name : String) :
    (Bound.oneOf label allowed).Tells name (.text t) (allowed.all fun a => t != (a : Text))
      (("invalid " ++ label ++ ": " : String) ++ t
        ++ (" (must be one of: " ++ ", ".intercalate allowed ++ ")" : String)) := by
  have hequal (a : String) : (Value.text t).equal (.text (a : Text)) = (t == (a : Text)) := rfl
  unfold Bound.Tells
  simp only [Bound.broken?, hequal, Value.plain]
  by_cases hallowed : ∃ a ∈ allowed, t = (a : Text)
  . have hall : (allowed.all fun a => t != (a : Text)) = false := by simpa using hallowed
    rw [if_pos (by simpa using hallowed), hall]
    rfl
  . have hall : (allowed.all fun a => t != (a : Text)) = true := by simpa using hallowed
    rw [if_neg (by simpa using hallowed), hall]
    rfl

theorem decides_of_tells {bound : Bound} {broken : Bool} {rule : String → Text}
    (hrange : range.Contains v ↔ broken = false)
    (htells : ∀ name, bound.Tells name v broken (rule name)) : Decides [bound] range v := by
  intro sect name
  rw [hrange, checkBounds, htells name]
  cases broken with
  | true => exact .inr ⟨by simp, rule name, rfl⟩
  | false => exact .inl ⟨rfl, rfl⟩

theorem decides_of_ends {first second : Bound} {tooLow tooHigh : String → Text}
    (hrange : range.Contains v ↔ low ≤ m ∧ m ≤ high)
    (hfirst : ∀ name, first.Tells name v (m < low) (tooLow name))
    (hsecond : ∀ name, second.Tells name v (high < m) (tooHigh name)) :
    Decides [first, second] range v := by
  intro sect name
  rw [hrange, checkBounds, hfirst name]
  by_cases hlow : m < low
  . exact .inr ⟨by omega, tooLow name, by simp [hlow]⟩
  . simp only [hlow, decide_false, Bool.false_eq_true, ↓reduceIte]
    rw [checkBounds, hsecond name]
    by_cases hhigh : high < m
    . exact .inr ⟨by omega, tooHigh name, by simp [hhigh]⟩
    . exact .inl ⟨by omega, by simp [hhigh, checkBounds]⟩

theorem decides_positive (hzero : ∀ c, Bound.compared c v zero = .ok (c.holds (compare m 0)))
    (hlimit : ∀ c, Bound.compared c v limit = .ok (c.holds (compare m high)))
    (hrange : range.Contains v ↔ 1 ≤ m ∧ m ≤ high) (shown : String) :
    Decides [.positive zero, .limited limit shown] range v := by
  apply decides_of_ends hrange
  . exact tells_positive hzero
  . exact tells_limited hlimit shown

theorem decides_nonnegative (hzero : ∀ c, Bound.compared c v zero = .ok (c.holds (compare m 0)))
    (hlimit : ∀ c, Bound.compared c v limit = .ok (c.holds (compare m high)))
    (hrange : range.Contains v ↔ 0 ≤ m ∧ m ≤ high) (shown : String) :
    Decides [.nonnegative zero, .limited limit shown] range v := by
  apply decides_of_ends hrange
  . exact tells_nonnegative hzero
  . exact tells_limited hlimit shown

end

theorem contains_integers {low high n : Int} :
    (ValueRange.integers low high).Contains (.integer n) ↔ low ≤ n ∧ n ≤ high := by
  simp [ValueRange.Contains]

theorem contains_durations {low high : Int} {d : Duration} :
    (ValueRange.durations low high).Contains (.duration d) ↔ low ≤ d.micros ∧ d.micros ≤ high := by
  simp [ValueRange.Contains]

theorem decides_withinZeroAnd (n : Int) (limit : Nat) :
    Decides [.withinZeroAnd limit] (.integers 0 limit) (.integer n) := by
  apply decides_of_tells ?_ (tells_withinZeroAnd n limit)
  rw [contains_integers]
  simp

theorem decides_nonempty (t : Text) : Decides [.nonempty] .nonempty (.text t) := by
  apply decides_of_tells ?_ (tells_nonempty t)
  simp [ValueRange.Contains, Text.isEmpty]

theorem decides_oneOf (label : String) (allowed : List String) (t : Text) :
    Decides [.oneOf label allowed] (.oneOf allowed) (.text t) := by
  apply decides_of_tells ?_ (tells_oneOf label allowed t)
  simp [ValueRange.Contains]

theorem decides_nil (v : Value) : Decides [] .everything v := by
  intro sect name
  left
  exact ⟨trivial, rfl⟩

theorem exists_text {v : Value} (h : SettingType.text.admits v = true) : ∃ t, v = .text t := by
  cases v <;> simp_all [SettingType.admits]

theorem exists_integer {v : Value} (h : SettingType.integer.admits v = true) :
    ∃ n, v = .integer n := by
  cases v <;> simp_all [SettingType.admits]

theorem exists_duration {v : Value} (h : SettingType.duration.admits v = true) :
    ∃ d, v = .duration d := by
  cases v <;> simp_all [SettingType.admits]

theorem decides_bounds {s : Setting} {v : Value} (h : s.type.admits v = true) :
    Decides s.bounds s.range v := by
  cases s with
  | environment | logLevel =>
    rcases exists_text h with ⟨t, rfl⟩
    apply decides_oneOf
  | dataDir | defaultPath =>
    rcases exists_text h with ⟨t, rfl⟩
    apply decides_nonempty
  | maxPeers | maxContentSize | maxFileCount | maxPathLength | rateLimit | maxLoginAttempts
  | maxFileSize | maxSitesPerWallet | maxMemoryUsage =>
    rcases exists_integer h with ⟨n, rfl⟩
    exact decides_positive (compared_integer n 0) (compared_integer n _) contains_integers _
  | maxRetries | backupRetention =>
    rcases exists_integer h with ⟨n, rfl⟩
    exact decides_nonnegative (compared_integer n 0) (compared_integer n _) contains_integers _
  | metricsPort | profilingPort =>
    rcases exists_integer h with ⟨n, rfl⟩
    exact decides_withinZeroAnd n 65535
  | peerTimeout | banDuration | sessionTimeout | cleanupInterval | backupInterval =>
    rcases exists_duration h with ⟨d, rfl⟩
    exact decides_positive (compared_duration d .zero) (compared_duration d _) contains_durations _
  | retryDelay =>
    rcases exists_duration h with ⟨d, rfl⟩
    exact decides_nonnegative (compared_duration d .zero) (compared_duration d _)
      contains_durations _
  | listenAddr | bootstrapPeers | enableMdns | enableNat | enableRelay | enablePeerValidation
  | enableRateLimiting | requireStrongPassphrase | enableCompression | enableEncryption
  | enableAutoBackup | enableMetrics | enableProfiling | garbageCollection =>
    apply decides_nil

theorem checkSettings_eq_ok_iff {c : Config} {report : Setting → Option Section}
    {settings : List Setting} :
    c.checkSettings report settings = .ok () ↔
      ∀ s ∈ settings, checkBounds (report s) s.name (c.get s) s.bounds = .ok () := by
  induction settings with
  | nil => simp [checkSettings]
  | cons s settings ih =>
    rw [checkSettings, Except.bind_eq_ok_iff]
    simp only [ih, List.mem_cons, forall_eq_or_imp]
    constructor
    . rintro ⟨⟨⟩, hs, hrest⟩
      exact ⟨hs, hrest⟩
    . rintro ⟨hs, hrest⟩
      exact ⟨(), hs, hrest⟩

theorem exists_violation_of_checkSettings {c : Config} (h : c.WellTyped)
    {report : Setting → Option Section} {settings : List Setting} {fault : ValidationFault}
    (hfault : c.checkSettings report settings = .error fault) :
    ∃ v, fault = .violation v := by
  induction settings with
  | nil => cases hfault
  | cons s settings ih =>
    rw [checkSettings, Except.bind_eq_error_iff] at hfault
    rcases hfault with hbounds | ⟨-, -, hrest⟩
    -- Values of the right types are compared without a fault, so that only a violation is left.
    . rcases decides_bounds (h s) (report s) s.name with ⟨-, hok⟩ | ⟨-, rule, herror⟩
      . rw [hok] at hbounds
        cases hbounds
      . rw [herror] at hbounds
        cases hbounds
        exact ⟨_, rfl⟩
    . exact ih hrest

/-- A configuration of the right types is valid if and only if every value lies in its range. -/
theorem validate_eq_ok_iff {c : Config} (h : c.WellTyped) :
    c.validate = .ok () ↔ ∀ s : Setting, s.range.Contains (c.get s) := by
  rw [validate, checkSettings_eq_ok_iff]
  constructor
  . intro hok s
    have hs := hok s s.mem_all
    rcases decides_bounds (h s) s.owner s.name with ⟨hrange, -⟩ | ⟨-, rule, herror⟩
    . exact hrange
    . rw [herror] at hs
      cases hs
  . intro hrange s _
    rcases decides_bounds (h s) s.owner s.name with ⟨-, hok⟩ | ⟨hout, -⟩
    . exact hok
    . exact absurd (hrange s) hout

theorem exists_violation_of_validate {c : Config} (h : c.WellTyped) {fault : ValidationFault}
    (hfault : c.validate = .error fault) : ∃ v, fault = .violation v :=
  exists_violation_of_checkSettings h hfault

theorem validate_default : default.validate = .ok () := by
  rfl

end Config
end NodeSettings
