import Mathlib.Data.List.Forall2
import NodeSettings.Failure
import NodeSettings.Proofs.Validation

/-!
This module contains the rules that a configuration has to keep, in the order in which they are
checked and with their texts. Of a configuration that is not valid, the first broken rule is
reported, and nothing behind that rule has a part in it.
-/

namespace NodeSettings

inductive Side where
  | below | above | outside
deriving DecidableEq

inductive Wording where
  | fixed (text : Text)
  | around (before after : Text)
deriving DecidableEq

structure Rule where
  setting : Setting
  side : Side
  wording : Wording
deriving DecidableEq

namespace ValueRange

def misses : ValueRange → Side → Value → Bool
  | integers low _, .below, .integer n => n < low
  | integers _ high, .above, .integer n => high < n
  | integers low high, .outside, .integer n => n < low || high < n
  | durations low _, .below, .duration d => d.micros < low
  | durations _ high, .above, .duration d => high < d.micros
  | oneOf allowed, .outside, .text t => allowed.all fun a => t != (a : Text)
  | nonempty, .outside, .text t => t.isEmpty
  | _, _, _ => false

end ValueRange

def Wording.text : Wording → Value → Text
  | fixed text, _ => text
  | around before after, .text shown => before ++ shown ++ after
  | around before after, _ => before ++ after

namespace Rule

def positive (s : Setting) : Rule :=
  ⟨s, .below, .fixed (s.name ++ " must be positive")⟩

def nonnegative (s : Setting) : Rule :=
  ⟨s, .below, .fixed (s.name ++ " cannot be negative")⟩

def limited (s : Setting) (shown : String) : Rule :=
  ⟨s, .above, .fixed (s.name ++ " too high (max " ++ shown ++ ")")⟩

def nonempty (s : Setting) : Rule :=
  ⟨s, .outside, .fixed (s.name ++ " cannot be empty")⟩

def port (s : Setting) : Rule :=
  ⟨s, .outside, .fixed (s.name ++ " must be between 0 and 65535" : String)⟩

/-- All rules, in the order in which they are checked. -/
def table : List Rule :=
  [⟨.environment, .outside,
      .around "invalid environment: " " (must be one of: development, staging, production)"⟩,
    ⟨.logLevel, .outside,
      .around "invalid log level: " " (must be one of: debug, info, warn, error)"⟩,
    positive .maxPeers, limited .maxPeers "1000",
    positive .peerTimeout, limited .peerTimeout "5 minutes",
    positive .maxContentSize, limited .maxContentSize "1GB",
    positive .maxFileCount, limited .maxFileCount "10000",
    positive .maxPathLength, limited .maxPathLength "1024",
    positive .rateLimit, limited .rateLimit "10000",
    positive .banDuration, limited .banDuration "24 hours",
    positive .maxLoginAttempts, limited .maxLoginAttempts "100",
    positive .sessionTimeout, limited .sessionTimeout "30 days",
    nonempty .dataDir,
    positive .maxFileSize, limited .maxFileSize "1GB",
    positive .cleanupInterval, limited .cleanupInterval "24 hours",
    nonnegative .maxRetries, limited .maxRetries "100",
    nonnegative .retryDelay, limited .retryDelay "10 seconds",
    nonempty .defaultPath,
    positive .backupInterval, limited .backupInterval "1 week",
    positive .maxSitesPerWallet, limited .maxSitesPerWallet "10000",
    nonnegative .backupRetention, limited .backupRetention "365",
    port .metricsPort,
    port .profilingPort,
    positive .maxMemoryUsage, limited .maxMemoryUsage "1TB"]

def isBrokenBy (r : Rule) (v : Value) : Bool :=
  r.setting.range.misses r.side v

def IsToldBy (r : Rule) (b : Bound) (v : Value) : Prop :=
  b.Tells r.setting.name v (r.isBrokenBy v) (r.wording.text v)

end Rule

def Setting.rules (s : Setting) : List Rule :=
  Rule.table.filter (·.setting = s)

theorem Rule.table_eq : Rule.table = Setting.all.flatMap Setting.rules := by
  rfl

theorem Rule.nodup_table : (Rule.table.map fun r => (r.setting, r.side)).Nodup := by
  decide

section

variable {r : Rule} {v : Value}

theorem forall₂_isToldBy {s : Setting} (h : s.type.admits v = true) :
    List.Forall₂ (fun r b => r.IsToldBy b v) s.rules s.bounds := by
  cases s with
  | environment | logLevel =>
    rcases Config.exists_text h with ⟨t, rfl⟩
    exact .cons (Config.tells_oneOf _ _ t _) .nil
  | dataDir | defaultPath =>
    rcases Config.exists_text h with ⟨t, rfl⟩
    exact .cons (Config.tells_nonempty t _) .nil
  | maxPeers | maxContentSize | maxFileCount | maxPathLength | rateLimit | maxLoginAttempts
  | maxFileSize | maxSitesPerWallet | maxMemoryUsage =>
    rcases Config.exists_integer h with ⟨n, rfl⟩
    have hcompared := Config.compared_integer n
    exact .cons (Config.tells_positive (hcompared 0) _)
      (.cons (Config.tells_limited (hcompared _) _ _) .nil)
  | maxRetries | backupRetention =>
    rcases Config.exists_integer h with ⟨n, rfl⟩
    have hcompared := Config.compared_integer n
    exact .cons (Config.tells_nonnegative (hcompared 0) _)
      (.cons (Config.tells_limited (hcompared _) _ _) .nil)
  | metricsPort | profilingPort =>
    rcases Config.exists_integer h with ⟨n, rfl⟩
    exact .cons (Config.tells_withinZeroAnd n _ _) .nil
  | peerTimeout | banDuration | sessionTimeout | cleanupInterval | backupInterval =>
    rcases Config.exists_duration h with ⟨d, rfl⟩
    have hcompared := Config.compared_duration d
    exact .cons (Config.tells_positive (hcompared .zero) _)
      (.cons (Config.tells_limited (hcompared _) _ _) .nil)
  | retryDelay =>
    rcases Config.exists_duration h with ⟨d, rfl⟩
    have hcompared := Config.compared_duration d
    exact .cons (Config.tells_nonnegative (hcompared .zero) _)
      (.cons (Config.tells_limited (hcompared _) _ _) .nil)
  | listenAddr | bootstrapPeers | enableMdns | enableNat | enableRelay | enablePeerValidation
  | enableRateLimiting | requireStrongPassphrase | enableCompression | enableEncryption
  | enableAutoBackup | enableMetrics | enableProfiling | garbageCollection =>
    exact .nil

theorem setting_of_mem_rules {s : Setting} (h : r ∈ s.rules) : r.setting = s := by
  simpa using List.of_mem_filter h

theorem forall₂_isToldBy_of_mem {s : Setting} (h : ∀ r ∈ s.rules, s.type.admits v = true) :
    List.Forall₂ (fun r b => r.IsToldBy b v) s.rules s.bounds := by
  cases hrules : s.rules with
  | nil =>
    -- Without rules there are no bounds either, and the default is as good as any value.
    have hdefault := forall₂_isToldBy (Config.wellTyped_default s)
    rw [hrules, List.forall₂_nil_left_iff] at hdefault
    rw [hdefault]
    exact .nil
  | cons r rules =>
    rw [← hrules]
    apply forall₂_isToldBy
    apply h r
    rw [hrules]
    exact .head _

end

namespace Config

def breaks (c : Config) (r : Rule) : Bool :=
  r.isBrokenBy (c.get r.setting)

def violation (c : Config) (r : Rule) : Violation :=
  ⟨r.setting.owner, r.wording.text (c.get r.setting)⟩

section

variable {c : Config} {v : Value} {s : Setting} {sect : Option Section} {r : Rule}
variable {rules front back : List Rule} {bounds : List Bound} {settings : List Setting}

theorem checkBounds_eq_ok (h : List.Forall₂ (fun r b => r.IsToldBy b v) rules bounds)
    (howner : ∀ r ∈ rules, r.setting = s) (hkept : ∀ r ∈ rules, r.isBrokenBy v = false) :
    checkBounds sect s.name v bounds = .ok () := by
  induction h with
  | nil => rfl
  | cons htold _ ih =>
    rw [List.forall_mem_cons] at howner hkept
    unfold Rule.IsToldBy Bound.Tells at htold
    rw [howner.1, hkept.1] at htold
    rw [checkBounds, htold]
    exact ih howner.2 hkept.2

theorem checkBounds_eq_error
    (h : List.Forall₂ (fun r b => r.IsToldBy b v) (front ++ r :: back) bounds)
    (howner : ∀ k ∈ front ++ r :: back, k.setting = s)
    (hkept : ∀ k ∈ front, k.isBrokenBy v = false) (hbroken : r.isBrokenBy v = true) :
    checkBounds sect s.name v bounds = .error (.violation ⟨sect, r.wording.text v⟩) := by
  induction front generalizing bounds with
  | nil =>
    cases h with
    | cons htold _ =>
      unfold Rule.IsToldBy Bound.Tells at htold
      rw [howner r (.head _), hbroken] at htold
      rw [checkBounds, htold]
      rfl
  | cons k front ih =>
    cases h with
    | cons htold hrest =>
      rw [List.cons_append, List.forall_mem_cons] at howner
      rw [List.forall_mem_cons] at hkept
      unfold Rule.IsToldBy Bound.Tells at htold
      rw [howner.1, hkept.1] at htold
      rw [checkBounds, htold]
      exact ih hrest howner.2 hkept.2

theorem checkBounds_setting_eq_ok
    (htyped : ∀ r ∈ s.rules, r.setting.type.admits (c.get r.setting) = true)
    (hkept : ∀ r ∈ s.rules, c.breaks r = false) :
    checkBounds sect s.name (c.get s) s.bounds = .ok () := by
  apply checkBounds_eq_ok
  . apply forall₂_isToldBy_of_mem
    intro r hr
    have hadmits := htyped r hr
    rwa [setting_of_mem_rules hr] at hadmits
  . intro r hr
    exact setting_of_mem_rules hr
  . intro r hr
    have hbreaks := hkept r hr
    rwa [breaks, setting_of_mem_rules hr] at hbreaks

theorem checkBounds_setting_eq_error (hsplit : s.rules = front ++ r :: back)
    (htyped : r.setting.type.admits (c.get r.setting) = true)
    (hkept : ∀ k ∈ front, c.breaks k = false) (hbroken : c.breaks r = true) :
    checkBounds s.owner s.name (c.get s) s.bounds = .error (.violation (c.violation r)) := by
  have howner : ∀ k ∈ front ++ r :: back, k.setting = s := by
    intro k hk
    rw [← hsplit] at hk
    exact setting_of_mem_rules hk
  have hs : r.setting = s := howner r (by simp)
  unfold breaks at hkept hbroken
  unfold violation
  rw [hs] at htyped hbroken ⊢
  apply checkBounds_eq_error
  . rw [← hsplit]
    exact forall₂_isToldBy htyped
  . exact howner
  . intro k hk
    have hkeeps := hkept k hk
    rwa [howner k (by simp [hk])] at hkeeps
  . exact hbroken

theorem checkSettings_eq_ok
    (htyped : ∀ r ∈ settings.flatMap Setting.rules, r.setting.type.admits (c.get r.setting) = true)
    (hkept : ∀ r ∈ settings.flatMap Setting.rules, c.breaks r = false) :
    c.checkSettings Setting.owner settings = .ok () := by
  rw [checkSettings_eq_ok_iff]
  intro s hs
  apply checkBounds_setting_eq_ok
  . intro r hr
    exact htyped r (List.mem_flatMap_of_mem hs hr)
  . intro r hr
    exact hkept r (List.mem_flatMap_of_mem hs hr)

theorem rules_split {more : List Rule} (h : s.rules ++ more = front ++ r :: back) :
    (∃ front', front = s.rules ++ front' ∧ more = front' ++ r :: back)
      ∨ ∃ back', s.rules = front ++ r :: back' := by
  rw [List.append_eq_append_iff] at h
  rcases h with ⟨front', hfront, hmore⟩ | ⟨rest, hrules, hrest⟩
  . exact .inl ⟨front', hfront, hmore⟩
  . cases rest with
    | nil =>
      rw [List.append_nil] at hrules
      rw [List.nil_append] at hrest
      exact .inl ⟨[], by rw [hrules, List.append_nil], hrest.symm⟩
    | cons k rest =>
      cases hrest
      exact .inr ⟨rest, hrules⟩

theorem checkSettings_eq_error (hsplit : settings.flatMap Setting.rules = front ++ r :: back)
    (htyped : ∀ k ∈ front ++ [r], k.setting.type.admits (c.get k.setting) = true)
    (hkept : ∀ k ∈ front, c.breaks k = false) (hbroken : c.breaks r = true) :
    c.checkSettings Setting.owner settings = .error (.violation (c.violation r)) := by
  induction settings generalizing front with
  | nil => simp at hsplit
  | cons s settings ih =>
    rw [List.flatMap_cons] at hsplit
    -- The broken rule is one of a later setting, or it is one of this setting.
    rcases rules_split hsplit with ⟨front', rfl, hrest⟩ | ⟨back', hrules⟩
    . simp only [List.append_assoc, List.forall_mem_append] at htyped hkept
      rw [checkSettings, checkBounds_setting_eq_ok htyped.1 hkept.1, Except.ok_bind]
      apply ih hrest
      . rw [List.forall_mem_append]
        exact htyped.2
      . exact hkept.2
    . have hbounds := checkBounds_setting_eq_error hrules (htyped r (by simp)) hkept hbroken
      rw [checkSettings, hbounds]
      rfl

theorem exists_first {p : Rule → Bool} {rules : List Rule} (h : ∃ r ∈ rules, p r = true) :
    ∃ front r back, rules = front ++ r :: back ∧ (∀ k ∈ front, p k = false) ∧ p r = true := by
  cases hfind : rules.find? p with
  | none =>
    rw [List.find?_eq_none] at hfind
    rcases h with ⟨r, hmem, hr⟩
    exact absurd hr (hfind r hmem)
  | some r =>
    rw [List.find?_eq_some_iff_append] at hfind
    rcases hfind with ⟨hr, front, back, hsplit, hfront⟩
    refine ⟨front, r, back, hsplit, ?_, hr⟩
    simpa using hfront

end

/-- A rule that a configuration breaks, between those before it, that it keeps, and the others. -/
structure BreaksFirst (c : Config) (front : List Rule) (r : Rule) (back : List Rule) : Prop where
  split : Rule.table = front ++ r :: back
  keeps : ∀ k ∈ front, c.breaks k = false
  broken : c.breaks r = true

section

variable {c d : Config} {r : Rule} {front back : List Rule}

theorem exists_breaksFirst (h : c.WellTyped) (hinvalid : c.validate ≠ .ok ()) :
    ∃ front r back, c.BreaksFirst front r back := by
  have hbroken : ∃ r ∈ Rule.table, c.breaks r = true := by
    apply Classical.byContradiction
    intro hnone
    apply hinvalid
    apply checkSettings_eq_ok
    . intro r _
      exact h r.setting
    . intro r hr
      rw [← Rule.table_eq] at hr
      rw [← Bool.not_eq_true]
      intro hbreaks
      exact hnone ⟨r, hr, hbreaks⟩
  rcases exists_first hbroken with ⟨front, r, back, hsplit, hkeeps, hbreaks⟩
  exact ⟨front, r, back, hsplit, hkeeps, hbreaks⟩

theorem BreaksFirst.validate_eq (h : c.BreaksFirst front r back)
    (htyped : ∀ k ∈ front ++ [r], k.setting.type.admits (c.get k.setting) = true) :
    c.validate = .error (.violation (c.violation r)) := by
  apply checkSettings_eq_error
  . rw [← Rule.table_eq]
    exact h.split
  . exact htyped
  . exact h.keeps
  . exact h.broken

theorem not_mem_back (h : c.BreaksFirst front r back) {k : Rule} (hk : k ∈ front ++ [r]) :
    k ∉ back := by
  have hnodup := Rule.nodup_table
  rw [h.split, List.append_cons, List.map_append, List.nodup_append] at hnodup
  intro hback
  exact hnodup.2.2 _ (List.mem_map_of_mem hk) _ (List.mem_map_of_mem hback) rfl

theorem BreaksFirst.congr (h : c.BreaksFirst front r back)
    (hget : ∀ k ∈ front ++ [r], d.get k.setting = c.get k.setting) :
    d.BreaksFirst front r back := by
  refine ⟨h.split, ?_, ?_⟩
  . intro k hk
    rw [breaks, hget k (by simp [hk])]
    exact h.keeps k hk
  . rw [breaks, hget r (by simp)]
    exact h.broken

end

/--
A configuration is valid if every value lies in its range. Otherwise the first broken rule is
reported, with its section and its text, whatever the values that only rules behind it are about.
-/
theorem validate_reports_first_violation {c : Config} (h : c.WellTyped) :
    (c.validate = .ok () ↔ ∀ s : Setting, s.range.Contains (c.get s))
      ∧ (c.validate ≠ .ok () → ∃ front r back, c.BreaksFirst front r back)
      ∧ ∀ front r back, c.BreaksFirst front r back →
        ∃ v : Violation, v.sect = r.setting.owner
          ∧ v.rule = r.wording.text (c.get r.setting)
          ∧ c.validate = .error (.violation v)
          ∧ (Failure.validation (.violation v)).kind = "ConfigValidationError"
          ∧ (v.sect = none → (Failure.validation (.violation v)).message = v.rule)
          ∧ (∀ x, v.sect = some x → (Failure.validation (.violation v)).message =
            (x.name ++ " config: " : String) ++ v.rule)
          ∧ ∀ d : Config,
            (∀ s, d.get s ≠ c.get s → ∀ k ∈ Rule.table, k.setting = s → k ∈ back) →
              d.validate = c.validate := by
  refine ⟨validate_eq_ok_iff h, exists_breaksFirst h, ?_⟩
  intro front r back hfirst
  have hvalidate := hfirst.validate_eq fun k _ => h k.setting
  refine ⟨c.violation r, rfl, rfl, hvalidate, rfl, ?_, ?_, ?_⟩
  . intro hnone
    rw [Failure.message, Violation.message, hnone]
  . intro x hx
    rw [Failure.message, Violation.message, hx]
  . intro d hchange
    have hget : ∀ k ∈ front ++ [r], d.get k.setting = c.get k.setting := by
      intro k hk
      apply Classical.byContradiction
      intro hne
      apply not_mem_back hfirst hk
      apply hchange _ hne k _ rfl
      rw [hfirst.split, List.append_cons]
      exact List.mem_append_left _ hk
    have hd : d.validate = .error (.violation (d.violation r)) := by
      apply (hfirst.congr hget).validate_eq
      intro k hk
      rw [hget k hk]
      exact h k.setting
    rw [hd, hvalidate, violation, violation, hget r (by simp)]

def hasty : Config :=
  ((default.set .peerTimeout (.duration (.minutes 6))).set .dataDir (.text "")).set .metricsPort
    (.integer 70000)

theorem validate_reports_first_violation_hasty :
    hasty.WellTyped
      ∧ hasty.validate =
        .error (.violation ⟨some .network, "peer_timeout too high (max 5 minutes)"⟩)
      ∧ (Failure.validation (.violation
          ⟨some .network, "peer_timeout too high (max 5 minutes)"⟩)).message =
        ("network config: peer_timeout too high (max 5 minutes)" : Text)
      ∧ (hasty.set .dataDir (.text "files")).validate = hasty.validate := by
  have htyped : hasty.WellTyped := by
    apply WellTyped.set
    . apply WellTyped.set
      . apply WellTyped.set
        . exact wellTyped_default
        . rfl
      . rfl
    . rfl
  have hfirst : hasty.BreaksFirst (Rule.table.take 5) (.limited .peerTimeout "5 minutes")
      (Rule.table.drop 6) := ⟨rfl, by decide, by decide⟩
  rcases (validate_reports_first_violation htyped).2.2 _ _ _ hfirst with
    ⟨v, hsect, hrule, hvalidate, -, -, hmessage, hstable⟩
  have hv : v = ⟨some .network, "peer_timeout too high (max 5 minutes)"⟩ := by
    cases v
    cases hsect
    cases hrule
    rfl
  refine ⟨htyped, by rw [hvalidate, hv], ?_, ?_⟩
  . rw [← hv, hmessage .network hsect, hv]
    rfl
  . apply hstable
    have hbehind : ∀ k ∈ Rule.table, k.setting = .dataDir → k ∈ Rule.table.drop 6 := by decide
    intro s hne k hk hs
    apply hbehind k hk
    rw [hs]
    apply Classical.byContradiction
    intro hother
    exact hne (get_set_of_ne _ _ hother)

end Config
end NodeSettings
