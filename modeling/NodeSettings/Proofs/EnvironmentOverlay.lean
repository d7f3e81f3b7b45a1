import NodeSettings.Proofs.Environment
import NodeSettings.Proofs.Schema

/-!
This module contains the documents that say the same as an environment: what the environment
describes is the defaults with such a document over them, and no other variable plays a part.
-/

namespace NodeSettings

namespace Value

def settingEntries (given : Setting → Option Value) (settings : List Setting) :
    List (Value × Value) :=
  settings.filterMap fun s => (given s).map fun raw => (.text s.name, raw)

def ofSettings (given : Setting → Option Value) : Value :=
  .map (settingEntries given Setting.general
    ++ Section.all.map fun x => (.text x.name, .map (settingEntries given x.settings)))

variable {given : Setting → Option Value} {settings : List Setting} {key raw : Value}
variable {s : Setting} {x : Section}

theorem mem_settingEntries_iff :
    (key, raw) ∈ settingEntries given settings ↔
      ∃ s ∈ settings, given s = some raw ∧ key = .text s.name := by
  simp [settingEntries, eq_comm (a := key)]

theorem mem_settingEntries_name_iff {owner : Option Section} (hs : s.owner = owner)
    (hsettings : ∀ t ∈ settings, t.owner = owner) (hmem : s ∈ settings) :
    (.text s.name, raw) ∈ settingEntries given settings ↔ given s = some raw := by
  rw [mem_settingEntries_iff]
  constructor
  . rintro ⟨t, ht, hgiven, hname⟩
    rw [Value.text.injEq, Text.ofString_inj] at hname
    have howner := hs.trans (hsettings t ht).symm
    rw [Setting.eq_of_owner_of_name howner hname]
    exact hgiven
  . intro hgiven
    exact ⟨s, hmem, hgiven, rfl⟩

theorem mem_ofSettings_iff :
    (key, raw) ∈ settingEntries given Setting.general
        ++ Section.all.map (fun x => (.text x.name, .map (settingEntries given x.settings))) ↔
      (∃ s ∈ Setting.general, given s = some raw ∧ key = .text s.name)
        ∨ ∃ x : Section, key = .text x.name ∧ raw = .map (settingEntries given x.settings) := by
  simp [mem_settingEntries_iff, Section.mem_all, eq_comm]

theorem mem_ofSettings_section_iff :
    (.text x.name, raw) ∈ settingEntries given Setting.general
        ++ Section.all.map (fun x => (.text x.name, .map (settingEntries given x.settings))) ↔
      raw = .map (settingEntries given x.settings) := by
  rw [mem_ofSettings_iff]
  constructor
  . rintro (⟨s, hs, -, hname⟩ | ⟨y, hname, hraw⟩)
    . rw [Value.text.injEq, Text.ofString_inj] at hname
      exact absurd hname (Section.name_ne_of_owner_eq_none (Setting.owner_eq_none_iff.mpr hs) x)
    . rw [Value.text.injEq, Text.ofString_inj, ← Section.ofName?_eq_some_iff,
        Section.ofName?_name] at hname
      cases hname
      exact hraw
  . intro hraw
    exact .inr ⟨x, rfl, hraw⟩

theorem mentions_ofSettings_iff : Mentions (ofSettings given) s raw ↔ given s = some raw := by
  constructor
  . intro h
    cases h with
    | general hs hmem =>
      rw [mem_ofSettings_iff] at hmem
      rcases hmem with ⟨t, ht, hgiven, hname⟩ | ⟨x, hname, -⟩
      . have hmem := mem_settingEntries_iff.mpr ⟨t, ht, hgiven, hname⟩
        rwa [mem_settingEntries_name_iff hs (fun _ => Setting.owner_eq_none_iff.mpr)
          (Setting.owner_eq_none_iff.mp hs)] at hmem
      . rw [Value.text.injEq, Text.ofString_inj] at hname
        exact absurd hname.symm (Section.name_ne_of_owner_eq_none hs x)
    | inner hs houter hmem =>
      rw [mem_ofSettings_section_iff, Value.map.injEq] at houter
      rw [houter, mem_settingEntries_name_iff hs (fun _ => Setting.owner_eq_some_iff.mpr)
        (Setting.owner_eq_some_iff.mp hs)] at hmem
      exact hmem
  . intro hgiven
    cases hs : s.owner with
    | none =>
      apply Mentions.general hs
      rw [mem_ofSettings_iff]
      exact .inl ⟨s, Setting.owner_eq_none_iff.mp hs, hgiven, rfl⟩
    | some x =>
      apply Mentions.inner hs (mem_ofSettings_section_iff.mpr rfl)
      rw [mem_settingEntries_name_iff hs (fun _ => Setting.owner_eq_some_iff.mpr)
        (Setting.owner_eq_some_iff.mp hs)]
      exact hgiven

theorem isWritable_of_mem_settingEntries (h : (key, raw) ∈ settingEntries given settings) :
    key.IsWritable := by
  rw [mem_settingEntries_iff] at h
  rcases h with ⟨s, -, -, rfl⟩
  exact ⟨_, rfl⟩

theorem hasWritableKeys_ofSettings (given : Setting → Option Value) :
    (ofSettings given).HasWritableKeys := by
  rintro entries ⟨⟩
  constructor
  . rintro ⟨key, raw⟩ hmem
    rw [mem_ofSettings_iff] at hmem
    rcases hmem with ⟨s, -, -, rfl⟩ | ⟨x, rfl, -⟩
    . exact ⟨_, rfl⟩
    . exact ⟨_, rfl⟩
  . rintro x inner hmem ⟨key, raw⟩ hinner
    rw [mem_ofSettings_section_iff, Value.map.injEq] at hmem
    rw [hmem] at hinner
    exact isWritable_of_mem_settingEntries hinner

theorem not_misplaces_ofSettings (given : Setting → Option Value) (x : Section) :
    ¬ Misplaces (ofSettings given) x := by
  rintro ⟨entries, raw, ⟨⟩, hmem, -, hmap⟩
  rw [mem_ofSettings_section_iff] at hmem
  exact hmap _ hmem

end Value

namespace Environment

def IsGiven (env : Environment) (leader ending v : String) : Prop :=
  env.lookup (variableName leader ending) = some v ∧ v ≠ ""

/-- An environment has a value for a setting, in the form in which documents have it. -/
inductive Gives (env : Environment) (leader : String) : Setting → Value → Prop where
  | text {ending v : String} {s : Setting}
    (named : (ending, s) ∈ [("ENV", .environment), ("LOG_LEVEL", .logLevel),
      ("LISTEN_ADDR", .listenAddr), ("DATA_DIR", .dataDir)])
    (there : IsGiven env leader ending v) : Gives env leader s (.text v)
  | peers {v : String} (there : IsGiven env leader "BOOTSTRAP_PEERS" v) :
    Gives env leader .bootstrapPeers
      (.list ((Text.entries v).map fun (peer : String) => .text peer))
  | number {ending v : String} {s : Setting} {n : Int}
    (named : (ending, s) ∈ [("MAX_PEERS", .maxPeers), ("MAX_CONTENT_SIZE", .maxContentSize)])
    (there : IsGiven env leader ending v) (h : Denotes v n) : Gives env leader s (.integer n)

/-- A document has, at the paths of settings, just the values that an environment has for them. -/
structure States (document : Value) (env : Environment) (leader : String) : Prop where
  isMapping : ∃ entries, document = .map entries
  keys : document.HasWritableKeys
  sections : ∀ x, ¬ Misplaces document x
  settings : ∀ s raw, Mentions document s raw ↔ Gives env leader s raw

section

variable {env env' : Environment} {leader ending v : String} {s : Setting} {c c' : Config}
variable {xs : List (String × Setting)} {raw : Value}

theorem value?_eq_some_iff : env.value? leader ending = some v ↔ IsGiven env leader ending v := by
  simp [value?, IsGiven, Option.filter_eq_some_iff]

theorem value?_eq_none_iff :
    env.value? leader ending = none ↔ ∀ v, ¬ IsGiven env leader ending v := by
  simp only [← value?_eq_some_iff]
  exact Option.eq_none_iff_forall_ne_some

theorem Denotes.unique {n k : Int} (hn : Denotes v n) (hk : Denotes v k) : n = k := by
  rcases hn with ⟨⟨digits, hn⟩, -⟩
  rcases hk with ⟨⟨other, hk⟩, -⟩
  exact (isNumeral_unique hk hn).2

theorem get_applyTexts_of_mem (hnodup : (xs.map Prod.snd).Nodup) (h : (ending, s) ∈ xs) :
    (env.applyTexts leader c xs).get s =
      ((env.value? leader ending).map fun v => Value.text v).getD (c.get s) := by
  induction xs generalizing c with
  | nil => cases h
  | cons first rest ih =>
    rcases first with ⟨ending', t⟩
    rw [List.map_cons, List.nodup_cons] at hnodup
    rcases List.mem_cons.mp h with heq | hrest
    . cases heq
      rw [applyTexts]
      split
      . next hnone => rw [get_applyTexts hnodup.1, hnone]; rfl
      . next v hv => rw [get_applyTexts hnodup.1, Config.get_set_self, hv]; rfl
    . have hne : s ≠ t := by
        rintro rfl
        exact hnodup.1 (List.mem_map.mpr ⟨_, hrest, rfl⟩)
      rw [applyTexts]
      split
      . exact ih hnodup.2 hrest
      . rw [ih hnodup.2 hrest, Config.get_set_of_ne _ _ hne]

theorem Applies.get_of_not_mem {records : List Log.Record} (h : Applies env leader xs c c' records)
    (hs : s ∉ xs.map Prod.snd) : c'.get s = c.get s := by
  induction h with
  | done => rfl
  | next first later ih =>
    rw [List.map_cons, List.mem_cons, not_or] at hs
    rw [ih hs.2, Config.get_set_of_ne _ _ hs.1]

theorem Applies.settles_of_mem {records : List Log.Record} (h : Applies env leader xs c c' records)
    (hnodup : (xs.map Prod.snd).Nodup) (hmem : (ending, s) ∈ xs) :
    ∃ reports, Settles env leader ending (c.get s) (c'.get s) reports := by
  induction h with
  | done => cases hmem
  | @next ending' t rest c c' v reports more first later ih =>
    rw [List.map_cons, List.nodup_cons] at hnodup
    rcases List.mem_cons.mp hmem with heq | hrest
    . cases heq
      rw [later.get_of_not_mem hnodup.1, Config.get_set_self]
      exact ⟨reports, first⟩
    . have hne : s ≠ t := by
        rintro rfl
        exact hnodup.1 (List.mem_map.mpr ⟨_, hrest, rfl⟩)
      rw [← Config.get_set_of_ne c v hne]
      exact ih hnodup.2 hrest

section

variable (hc : (Config.ofEnvironment env leader).1 = .ok c)

include hc

theorem get_of_text (named : (ending, s) ∈ textVariables) :
    c.get s = ((env.value? leader ending).map fun v => Value.text v).getD s.default := by
  have hs : s ≠ .bootstrapPeers ∧ s ∉ numberVariables.map Prod.snd := by
    have hall : ∀ x ∈ textVariables,
        x.2 ≠ .bootstrapPeers ∧ x.2 ∉ numberVariables.map Prod.snd := by decide
    exact hall _ named
  rw [(applies_of_applyNumbers hc).get_of_not_mem hs.2, get_applyPeers hs.1,
    get_applyTexts_of_mem (by decide) named]
  rfl

theorem get_of_peers :
    c.get .bootstrapPeers =
      ((env.value? leader peersVariable).map fun v =>
        Value.list ((Text.entries v).map fun (peer : String) => .text peer)).getD
          (Setting.default .bootstrapPeers) := by
  rw [(applies_of_applyNumbers hc).get_of_not_mem (by decide), applyPeers]
  split
  . next hnone => rw [get_applyTexts (by decide), hnone]; rfl
  . next v hv => rw [Config.get_set_self, hv]; rfl

theorem settles_of_number (named : (ending, s) ∈ numberVariables) :
    ∃ reports, Settles env leader ending s.default (c.get s) reports := by
  have hs : s ≠ .bootstrapPeers ∧ s ∉ textVariables.map Prod.snd := by
    have hall : ∀ x ∈ numberVariables,
        x.2 ≠ .bootstrapPeers ∧ x.2 ∉ textVariables.map Prod.snd := by decide
    exact hall _ named
  have hsettles := (applies_of_applyNumbers hc).settles_of_mem (by decide) named
  rwa [get_applyPeers hs.1, get_applyTexts hs.2] at hsettles

theorem get_of_gives (h : Gives env leader s raw) : c.get s = raw := by
  cases h with
  | text named there =>
    rw [get_of_text hc named, value?_eq_some_iff.mpr there]
    rfl
  | peers there =>
    rw [get_of_peers hc, peersVariable, value?_eq_some_iff.mpr there]
    rfl
  | number named there h =>
    rcases settles_of_number hc named with ⟨reports, hsettles⟩
    rw [← value?_eq_some_iff] at there
    generalize c.get s = value at hsettles
    cases hsettles with
    | missing hnone =>
      rw [hnone] at there
      cases there
    | taken there' h' =>
      rw [there'] at there
      cases there
      rw [h.unique h']
    | ignored there' h' =>
      rw [there'] at there
      cases there
      exact absurd h (h' _)

theorem get_of_not_gives (h : ∀ raw, ¬ Gives env leader s raw) : c.get s = s.default := by
  by_cases htext : s ∈ textVariables.map Prod.snd
  . rcases List.mem_map.mp htext with ⟨⟨ending, s⟩, named, rfl⟩
    have hnone : env.value? leader ending = none := by
      rw [value?_eq_none_iff]
      intro v there
      exact h _ (.text named there)
    rw [get_of_text hc named, hnone]
    rfl
  by_cases hpeers : s = .bootstrapPeers
  . subst hpeers
    have hnone : env.value? leader peersVariable = none := by
      rw [value?_eq_none_iff]
      intro v there
      exact h _ (.peers there)
    rw [get_of_peers hc, hnone]
    rfl
  by_cases hnumber : s ∈ numberVariables.map Prod.snd
  . rcases List.mem_map.mp hnumber with ⟨⟨ending, s⟩, named, rfl⟩
    rcases settles_of_number hc named with ⟨reports, hsettles⟩
    generalize c.get s = value at hsettles
    cases hsettles with
    | missing hnone => rfl
    | taken there denotes =>
      rw [value?_eq_some_iff] at there
      exact absurd (.number named there denotes) (h _)
    | ignored there hnone => rfl
  . rw [(applies_of_applyNumbers hc).get_of_not_mem hnumber, get_applyPeers hpeers,
      get_applyTexts htext]
    rfl

end

theorem Gives.reads_self (h : Gives env leader s raw) : Reads s.type raw raw := by
  have htexts : ∀ x ∈ textVariables, x.2.type = .text := by decide
  have hnumbers : ∀ x ∈ numberVariables, x.2.type = .integer := by decide
  cases h with
  | text named there =>
    have htype : s.type = .text := htexts _ named
    rw [htype]
    exact .text _
  | peers there => exact .texts (by simp)
  | number named there h =>
    have htype : s.type = .integer := hnumbers _ named
    rw [htype]
    exact .integer _

theorem Gives.reads (h : Gives env leader s raw) {v : Value} : Reads s.type raw v ↔ v = raw := by
  constructor
  . intro hv
    exact hv.unique h.reads_self
  . rintro rfl
    exact h.reads_self

theorem States.overlay_eq {document : Value} (hd : States document env leader)
    (hc : (Config.ofEnvironment env leader).1 = .ok c) :
    (Config.default.overlay document).fault = none
      ∧ (Config.default.overlay document).config = c := by
  have hshape : HasShape document := by
    refine ⟨.inr hd.isMapping, hd.sections, ?_⟩
    intro s raw hmention
    rw [hd.settings] at hmention
    exact .inr ⟨raw, hmention.reads.mpr rfl⟩
  have hfault : (Config.default.overlay document).fault = none :=
    (Overlay.fault_eq_none_iff hd.keys).mpr hshape
  refine ⟨hfault, Config.ext fun s => ?_⟩
  rcases Overlay.get_overlay hd.keys hfault s with ⟨raw, hmention, hread⟩ | ⟨hnull, hget⟩
  . rw [hd.settings] at hmention
    rw [hmention.reads.mp hread, get_of_gives hc hmention]
  . rw [hget]
    symm
    apply get_of_not_gives hc
    intro raw hgives
    -- An environment gives no nulls.
    have hraw := hnull raw ((hd.settings s raw).mpr hgives)
    rw [hraw] at hgives
    cases hgives

theorem exists_states (hc : (Config.ofEnvironment env leader).1 = .ok c) :
    ∃ document, States document env leader := by
  classical
  let given (s : Setting) : Option Value :=
    if ∃ raw, Gives env leader s raw then some (c.get s) else none
  have hgiven (s : Setting) (raw : Value) : given s = some raw ↔ Gives env leader s raw := by
    show (if _ then _ else _) = _ ↔ _
    split
    . next hsome =>
      rcases hsome with ⟨other, hother⟩
      rw [get_of_gives hc hother, Option.some.injEq]
      constructor
      . rintro rfl
        exact hother
      . intro h
        rw [← get_of_gives hc h, get_of_gives hc hother]
    . next hnone =>
      simp only [reduceCtorEq, false_iff]
      intro h
      exact hnone ⟨raw, h⟩
  refine ⟨Value.ofSettings given, ⟨_, rfl⟩, Value.hasWritableKeys_ofSettings given,
    Value.not_misplaces_ofSettings given, ?_⟩
  intro s raw
  rw [Value.mentions_ofSettings_iff, hgiven]

theorem applyTexts_congr (h : ∀ x ∈ xs, env.value? leader x.1 = env'.value? leader x.1) :
    env.applyTexts leader c xs = env'.applyTexts leader c xs := by
  induction xs generalizing c with
  | nil => rfl
  | cons first rest ih =>
    rcases first with ⟨ending, s⟩
    have hfirst : env.value? leader ending = env'.value? leader ending := h _ (.head _)
    have hrest := fun x hx => h x (.tail _ hx)
    rw [applyTexts, applyTexts, hfirst]
    split
    . exact ih hrest
    . exact ih hrest

theorem applyNumbers_congr (h : ∀ x ∈ xs, env.value? leader x.1 = env'.value? leader x.1) :
    env.applyNumbers leader c xs = env'.applyNumbers leader c xs := by
  induction xs generalizing c with
  | nil => rfl
  | cons first rest ih =>
    rcases first with ⟨ending, s⟩
    have hfirst : env.value? leader ending = env'.value? leader ending := h _ (.head _)
    have hrest := fun x hx => h x (.tail _ hx)
    rw [applyNumbers, applyNumbers, hfirst]
    split
    . exact ih hrest
    . split
      . exact ih hrest
      . rfl
      . rw [ih hrest]

def endings : List String :=
  ["ENV", "LOG_LEVEL", "LISTEN_ADDR", "DATA_DIR", "BOOTSTRAP_PEERS", "MAX_PEERS",
    "MAX_CONTENT_SIZE"]

theorem ofEnvironment_congr
    (h : ∀ ending ∈ endings, ∀ v, IsGiven env leader ending v ↔ IsGiven env' leader ending v) :
    Config.ofEnvironment env leader = Config.ofEnvironment env' leader := by
  have hvalue : ∀ ending ∈ endings, env.value? leader ending = env'.value? leader ending := by
    intro ending hmem
    ext v
    rw [value?_eq_some_iff, value?_eq_some_iff]
    exact h ending hmem v
  have htexts : ∀ x ∈ textVariables, x.1 ∈ endings := by decide
  have hnumbers : ∀ x ∈ numberVariables, x.1 ∈ endings := by decide
  have hpeers (c : Config) : env.applyPeers leader c = env'.applyPeers leader c := by
    rw [applyPeers, applyPeers, hvalue peersVariable (by decide)]
  unfold Config.ofEnvironment
  dsimp only
  rw [applyTexts_congr fun x hx => hvalue _ (htexts x hx), hpeers,
    applyNumbers_congr fun x hx => hvalue _ (hnumbers x hx)]

end

/--
The configuration that an environment describes is the defaults with a document over them: any
document that states what the variables are, and there is one. An environment with the same seven
variables describes the same and is reported on in the same way, whatever else it holds; a variable
that is empty is as good as none.
-/
theorem ofEnvironment_agrees_with_overlay (env : Environment) (leader : String) :
    (∀ c, (Config.ofEnvironment env leader).1 = .ok c →
        (∃ document, States document env leader)
          ∧ ∀ document, States document env leader →
            (Config.default.overlay document).fault = none
              ∧ (Config.default.overlay document).config = c)
      ∧ ∀ env' : Environment,
        (∀ ending ∈ endings, ∀ v, IsGiven env leader ending v ↔ IsGiven env' leader ending v) →
          (Config.ofEnvironment env leader).1 = (Config.ofEnvironment env' leader).1
            ∧ (Config.ofEnvironment env leader).2 = (Config.ofEnvironment env' leader).2 := by
  constructor
  . intro c hc
    exact ⟨exists_states hc, fun document hd => hd.overlay_eq hc⟩
  . intro env' h
    rw [ofEnvironment_congr h]
    exact ⟨rfl, rfl⟩

def mixedVariables : Environment :=
  [("OTHER_MAX_PEERS", "3"), ("NODE_LOG_LEVEL", ""), ("NODE_BOOTSTRAP_PEERS", " a, ,b "),
    ("NODE_MAX_PEERS", "+12"), ("NODE_MAX_CONTENT_SIZE", "9223372036854775808"),
    ("NODE_MAX_RETRIES", "5")]

def countedVariables : Environment :=
  [("NODE_MAX_CONTENT_SIZE", "9223372036854775808"), ("NODE_MAX_PEERS", "+12"),
    ("NODE_BOOTSTRAP_PEERS", " a, ,b ")]

def mixedConfig : Config :=
  (Config.default.set .bootstrapPeers (.list [.text "a", .text "b"])).set .maxPeers (.integer 12)

theorem ofEnvironment_agrees_with_overlay_mixed :
    (Config.ofEnvironment mixedVariables "NODE").1 = .ok mixedConfig
      ∧ (∃ document, States document mixedVariables "NODE"
        ∧ (Config.default.overlay document).config = mixedConfig)
      ∧ (Config.ofEnvironment mixedVariables "NODE").2 =
        (Config.ofEnvironment countedVariables "NODE").2 := by
  have hc : (Config.ofEnvironment mixedVariables "NODE").1 = .ok mixedConfig := by
    rfl
  rcases ofEnvironment_agrees_with_overlay mixedVariables "NODE" with ⟨hoverlay, hother⟩
  rcases hoverlay _ hc with ⟨⟨document, hd⟩, hall⟩
  have hsame : ∀ ending ∈ endings,
      mixedVariables.value? "NODE" ending = countedVariables.value? "NODE" ending := by
    decide
  refine ⟨hc, ⟨document, hd, (hall document hd).2⟩, (hother countedVariables ?_).2⟩
  intro ending hmem v
  rw [← value?_eq_some_iff, ← value?_eq_some_iff, hsame ending hmem]

end Environment
end NodeSettings
