import NodeSettings.Proofs.Environment
import NodeSettings.Proofs.Key
import NodeSettings.Proofs.Session.Handle

/-!
This module contains the types of what configurations hold in every run of a session: unless values
of other types are assigned to attributes or attributes are deleted, every configuration holds
values of the right types, and if it is not valid, then because it breaks a rule.
-/

namespace NodeSettings

theorem Value.copiedList_eq_map (copy : Nat) (items : List Value) :
    copiedList copy items = items.map (copied copy) := by
  induction items with
  | nil => rfl
  | cons item items ih => rw [copiedList, ih, List.map_cons]

theorem SettingType.admits_list (items : List Value) :
    texts.admits (.list items) = items.all text.admits := by
  show items.all _ = _
  congr
  funext item
  cases item <;> rfl

theorem SettingType.admits_copied (t : SettingType) (copy : Nat) (v : Value) :
    t.admits (v.copied copy) = t.admits v := by
  cases v with
  | list items =>
    rw [Value.copied, Value.copiedList_eq_map]
    cases t with
    | texts =>
      rw [admits_list, admits_list, List.all_map]
      congr
      funext item
      cases item <;> rfl
    | _ => rfl
  | _ => cases t <;> rfl

theorem Config.WellTyped.copied {c : Config} (h : c.WellTyped) (copy : Nat) :
    (c.copied copy).WellTyped := by
  intro s
  show s.type.admits ((c.get s).copied copy) = true
  rw [SettingType.admits_copied]
  exact h s

theorem Aggregate.WellTyped.copied {a : Aggregate} (h : a.WellTyped) (copy : Nat) :
    (a.copied copy).WellTyped := by
  refine ⟨⟨?_, h.fields⟩, h.settings.copied copy⟩
  intro x
  show (a.inPlace x).map (Value.copied copy) = none
  rw [h.sections]
  rfl

namespace Reach

variable {r : Reach} {a : Aggregate} {name : String} {v : Value} {s : Setting}

theorem admits_of_keyTarget (h : r.keyTarget a name v = .ok s) : s.type.admits v = true := by
  unfold keyTarget at h
  split at h
  . cases h
  . next k hk =>
    rw [Except.bind_eq_ok_iff] at h
    rcases h with ⟨-, -, h⟩
    split at h
    . cases h
    . cases h
      exact Key.admits_of_accepting hk

theorem admits_of_mem_steps {document : Value} (h : .assign s v ∈ (r.steps a document).1) :
    s.type.admits v = true := by
  unfold steps at h
  split at h
  . exact Overlay.admits_of_mem_steps h
  . unfold Overlay.stepsWithin at h
    split at h
    . simp at h
    . exact Overlay.admits_of_mem_ownedSteps h
    . simp at h

end Reach

theorem Part.name_of_field? {p : Part} {name : String} {f : Field} (h : p.field? name = some f) :
    f.name = name := by
  unfold field? at h
  rw [Option.or_eq_some_iff] at h
  rcases h with h | ⟨-, h⟩
  . split at h
    . rw [Option.map_eq_some_iff] at h
      rcases h with ⟨x, hx, rfl⟩
      exact Section.ofName?_eq_some_iff.mp hx
    . cases h
  . rw [Option.map_eq_some_iff] at h
    rcases h with ⟨t, ht, rfl⟩
    exact (Setting.find?_eq_some_iff.mp ht).2

theorem Part.field?_of_member {p : Part} {name : String} {f : Field}
    (h : p.member name = .ok (.field f)) : p.field? name = some f := by
  unfold member at h
  cases hfield : p.field? name with
  | some g =>
    rw [hfield] at h
    cases h
    rfl
  | none =>
    rw [hfield] at h
    dsimp only at h
    split at h <;> cases h

theorem Reach.name_of_assignable {r : Reach} {name : String} {f : Field}
    (h : r.assignable name = .ok f) : f.name = name := by
  unfold assignable at h
  split at h
  . cases h
  . unfold field at h
    rcases Except.bind_eq_ok_iff.mp h with ⟨m, hm, h⟩
    cases m with
    | action => cases h
    | field g =>
      cases h
      exact Part.name_of_field? (Part.field?_of_member hm)

namespace Session

variable {s s' : Session} {t : Step} {steps : List Step} {c : Aggregate}

/-- A value is of the type of the setting that has a name; there is none for those of sections. -/
def fits (name : String) (v : Value) : Bool :=
  (Section.all.all fun x => x.name != name)
    && Setting.all.all fun setting => setting.name != name || setting.type.admits v

/--
What a step assigns to attributes, or adds to the peers, is of the right type, and it deletes
nothing from a configuration itself.
-/
def assignsTyped (s : Session) : Step → Bool
  | .assign _ _ name v | .put _ _ name v => fits name v
  | .appendPeer _ v => SettingType.text.admits v
  | .delete on names _ => (s.reached on names).toOption.all fun slot => !isRaw slot
  | _ => true

def keepsTypes : Session → List Step → Bool
  | _, [] => true
  | s, t :: steps => s.assignsTyped t && keepsTypes (s.step t).2 steps

theorem admits_of_fits {setting : Setting} {v : Value} (h : fits setting.name v = true) :
    setting.type.admits v = true := by
  rw [fits, Bool.and_eq_true, List.all_eq_true, List.all_eq_true] at h
  simpa using h.2 setting setting.mem_all

theorem not_fits_section {x : Section} {v : Value} (h : fits x.name v = true) : False := by
  rw [fits, Bool.and_eq_true, List.all_eq_true] at h
  simpa using h.1 x x.mem_all

theorem wellTyped_assign {f : Field} {v : Value} (hc : c.WellTyped) (hv : fits f.name v = true) :
    (c.assign v f).WellTyped := by
  cases f with
  | setting x => exact hc.set (admits_of_fits hv)
  | sect x => exact (not_fits_section hv).elim

theorem exists_deleteFrom {owner : Slot} (h : isRaw owner = false) (s : Session) (name : String) :
    ∃ f, s.deleteFrom owner name = .error f := by
  cases owner with
  | config n reach =>
    have hview : Slot.isView (.config n reach) = true := by simpa [isRaw, Slot.isView] using h
    exact ⟨_, deleteFrom_of_isView hview s name⟩
  | handle k views | value w views | method o action views => exact ⟨_, rfl⟩

theorem admits_of_appended {v before peers : Value}
    (hbefore : SettingType.texts.admits before = true) (hv : SettingType.text.admits v = true)
    (h : appended v before = .ok peers) : SettingType.texts.admits peers = true := by
  unfold appended at h
  split at h
  . next items =>
    cases h
    rw [SettingType.admits_list] at hbefore ⊢
    rw [List.all_append, hbefore, List.all_cons, hv]
    rfl
  . cases h

theorem config_of_whole {on missing : String} {n : Nat} (h : s.whole on missing = .ok (n, c)) :
    c = s.config n := by
  unfold whole at h
  split at h
  . cases h
  . split at h
    . cases h
      rfl
    . cases h

def IsTyped (s : Session) : Prop :=
  ∀ c ∈ s.configs, c.WellTyped

namespace IsTyped

theorem config (hs : s.IsTyped) (n : Nat) : (s.config n).WellTyped := by
  rw [Session.config, List.getD_eq_getElem?_getD]
  cases hget : s.configs[n]? with
  | none => exact Aggregate.wellTyped_coe Config.wellTyped_default
  | some c => exact hs c (List.mem_of_getElem? hget)

theorem of_eq (hs : s.IsTyped) (h : s'.configs = s.configs) : s'.IsTyped := by
  unfold IsTyped
  rw [h]
  exact hs

theorem of_added (hs : s.IsTyped) (hc : c.WellTyped) (h : s'.configs = s.configs ++ [c]) :
    s'.IsTyped := by
  unfold IsTyped
  rw [h]
  intro d hd
  rw [List.mem_append, List.mem_singleton] at hd
  rcases hd with hd | rfl
  . exact hs d hd
  . exact hc

theorem setConfig (hs : s.IsTyped) (n : Nat) (hc : c.WellTyped) : (s.setConfig n c).IsTyped := by
  intro d hd
  rcases List.mem_or_eq_of_mem_set hd with hd | rfl
  . exact hs d hd
  . exact hc

theorem emit (hs : s.IsTyped) (records : List Log.Record) : (s.emit records).IsTyped :=
  hs.of_eq (emit_configs s records)

theorem keepTelling (hs : s.IsTyped) (dest : String) (hc : c.WellTyped) :
    (s.keepTelling dest c).2.IsTyped :=
  hs.of_added hc rfl

theorem keepCopy (hs : s.IsTyped) (dest : String) (hc : c.WellTyped) :
    (s.keepCopy dest c).2.IsTyped :=
  hs.keepTelling dest (hc.copied _)

theorem assignTo {owner : Slot} {name : String} {v : Value} (hs : s.IsTyped)
    (hv : fits name v = true) (h : s.assignTo owner name v = .ok s') : s'.IsTyped := by
  unfold Session.assignTo at h
  split at h
  . next n reach =>
    rw [Except.bind_eq_ok_iff] at h
    rcases h with ⟨f, hf, h⟩
    cases h
    apply hs.setConfig
    rw [← Reach.name_of_assignable hf] at hv
    exact wellTyped_assign (hs.config n) hv
  . split at h
    . cases h
    . split at h
      . cases h
      . cases h
        exact hs
  . cases h
  . cases h

theorem assign {on name : String} {names : List String} {v : Value} (hs : s.IsTyped)
    (hv : fits name v = true) : (s.assign on names name v).2.IsTyped := by
  have hok : ∀ slot s', ((s.follow slot names).bind fun owner => s.assignTo owner name v) = .ok s' →
      s'.IsTyped := by
    intro slot s' h
    have h := Except.bind_eq_ok_iff.mp h
    rcases h with ⟨owner, -, h⟩
    exact hs.assignTo hv h
  unfold Session.assign
  split
  . exact hs
  . split
    . exact hs
    . next h => exact hok _ _ h
    . exact hs
    . next h => exact hok _ _ h

theorem put {on name : String} {names : List String} {v : Value} (hs : s.IsTyped)
    (hv : fits name v = true) : (s.put on names name v).2.IsTyped := by
  unfold Session.put
  split
  . exact hs
  . next s' h =>
    have h := Except.bind_eq_ok_iff.mp h
    rcases h with ⟨owner, -, h⟩
    exact hs.assignTo hv h

theorem delete {on name : String} {names : List String} (hs : s.IsTyped)
    (h : (s.reached on names).toOption.all (fun slot => !isRaw slot) = true) :
    (s.delete on names name).2.IsTyped := by
  unfold Session.delete
  cases hreached : s.reached on names with
  | error e => exact hs
  | ok owner =>
    have hraw : isRaw owner = false := by simpa [hreached, Except.toOption] using h
    rcases exists_deleteFrom hraw s name with ⟨f, hf⟩
    simp only [Except.bind, hf]
    exact hs

theorem appendPeer {on : String} {v : Value} (hs : s.IsTyped)
    (hv : SettingType.text.admits v = true) : (s.appendPeer on v).2.IsTyped := by
  unfold Session.appendPeer
  split
  . exact hs
  . next n reach htarget =>
    split
    . exact hs
    . split
      . exact hs
      . next peers hpeers =>
        have hseen : reach.seen (s.config n) = s.config n := by
          rw [Reach.seen, Reach.isView_of_appended hpeers]
          rfl
        rw [hseen, ((hs.config n).has none _).read] at hpeers
        apply hs.setConfig
        apply (hs.config n).set
        exact admits_of_appended ((hs.config n).settings .bootstrapPeers) hv hpeers

theorem overlay (hs : s.IsTyped) (on : String) (document : Value) :
    (s.overlay on document).2.IsTyped := by
  unfold Session.overlay
  split
  . exact hs
  . next n reach htarget =>
    dsimp only
    split
    . split
      . exact hs
      . rw [overlaid_snd]
        exact hs
    . -- The steps in front of a fault have been carried out, and all of them keep to the types.
      have hrun : (Overlay.run (s.config n).toConfig
          (reach.steps (s.config n) document).1).config.WellTyped :=
        Overlay.wellTyped_run (hs.config n).settings fun setting v => Reach.admits_of_mem_steps
      split
      . exact hs.setConfig n ⟨(hs.config n).toIsWhole.overlaid _, hrun⟩
      . rw [overlaid_snd]
        exact hs.setConfig n ⟨(hs.config n).toIsWhole.overlaid _, hrun⟩

theorem setKey (hs : s.IsTyped) (on name : String) (v : Value) :
    (s.setKey on name v).2.IsTyped := by
  unfold Session.setKey
  split
  . exact hs
  . next n reach hslot =>
    split
    . exact hs
    . next setting hsetting =>
      apply hs.setConfig
      exact (hs.config n).set (Reach.admits_of_keyTarget hsetting)
  . split
    . exact hs
    . exact hs

theorem parse (hs : s.IsTyped) (dest : String) (document : Value) :
    (s.parse dest document).2.IsTyped := by
  unfold Session.parse
  split
  . exact hs
  . exact hs
  . next h => exact hs.keepTelling dest (Aggregate.wellTyped_coe (wellTyped_of_ofDocument h).1)

theorem environment (hs : s.IsTyped) (dest : String) (env : Environment) (leader : String) :
    (s.environment dest env leader).2.IsTyped := by
  unfold Session.environment
  dsimp only
  split
  . exact hs.emit _
  . next h =>
    have hc := Config.wellTyped_of_ofEnvironment h
    exact (hs.emit _).keepTelling dest (Aggregate.wellTyped_coe hc)

theorem load (hs : s.IsTyped) (path : Text) (dest : String) : (s.load path dest).2.IsTyped := by
  unfold Session.load
  dsimp only
  split
  . exact hs.emit _
  . next h => exact (hs.emit _).keepTelling dest (Aggregate.wellTyped_coe (wellTyped_of_load h).1)

theorem handle (hs : s.IsTyped) (dest : String) (path : Option Text) :
    (s.handle dest path).2.IsTyped := by
  cases hload : (s.loadFrom (path.map Path.ofText)).1 with
  | error e =>
    simp only [Session.handle, hload]
    exact hs.emit _
  | ok c =>
    have hc := Aggregate.wellTyped_coe (wellTyped_of_loadFrom hload).1
    exact hs.of_added hc (handle_has hload dest).configs

theorem reload (hs : s.IsTyped) (on dest : String) : (s.reload on dest).2.IsTyped := by
  cases hof : s.handleOf on "reload" with
  | error e =>
    simp only [Session.reload, hof]
    exact hs
  | ok found =>
    rcases found with ⟨k, h⟩
    rcases slot_of_handleOf hof with ⟨rfl, views, hslot⟩
    cases hload : (s.loadFrom (s.handleAt k).source).1 with
    | error e =>
      simp only [Session.reload, hof, hload]
      exact (hs.emit _).emit _
    | ok c =>
      have hc := Aggregate.wellTyped_coe (wellTyped_of_loadFrom hload).1
      exact hs.of_added hc (reload_has hslot hload dest).configs

theorem perform (hs : s.IsTyped) (ht : s.assignsTyped t = true) : (s.perform t).2.IsTyped := by
  by_cases hpassive : isPassive t = true
  . exact hs.of_eq (perform_has hpassive).configs
  . unfold Session.perform
    cases t with
    | new dest => exact hs.keepTelling dest (Aggregate.wellTyped_coe Config.wellTyped_default)
    | copy on dest =>
      dsimp only [Session.copy]
      split
      . exact hs
      . next hwhole =>
        rw [config_of_whole hwhole]
        exact hs.keepCopy dest (hs.config _)
    | assign on names name v => exact hs.assign ht
    | appendPeer on v => exact hs.appendPeer ht
    | overlay on document => apply hs.overlay
    | parse dest document => apply hs.parse
    | environment dest env leader => apply hs.environment
    | processEnvironment dest env leader =>
      dsimp only [Session.processEnvironment]
      split
      . exact hs
      . apply hs.environment
    | setKey on name v => apply hs.setKey
    | load path dest => apply hs.load
    | put on names name v => exact hs.put ht
    | delete on names name => exact hs.delete ht
    | handle dest path => apply hs.handle
    | snapshot on dest =>
      dsimp only [Session.snapshot]
      split
      . exact hs
      . exact hs.keepCopy dest (hs.config _)
    | reload on dest => apply hs.reload
    -- Views only keep what is there already.
    | view on dest =>
      dsimp only [Session.view]
      split
      . exact hs
      . exact hs.of_eq rfl
    | sect on name dest =>
      dsimp only [Session.sect]
      split
      . exact hs
      . exact hs.of_eq rfl
    | handleView on dest =>
      dsimp only [Session.handleView]
      split
      . exact hs
      . exact hs.of_eq rfl
    | _ => exact absurd rfl hpassive

theorem step (hs : s.IsTyped) (ht : s.assignsTyped t = true) : (s.step t).2.IsTyped := by
  have hfresh : s.fresh.IsTyped := hs
  apply hfresh.perform
  cases t with
  | delete on names name =>
    simp only [assignsTyped, reached_fresh] at ht ⊢
    exact ht
  | _ => exact ht

theorem run (hs : s.IsTyped) (h : s.keepsTypes steps = true) : (s.run steps).IsTyped := by
  induction steps generalizing s with
  | nil => exact hs
  | cons t steps ih =>
    rw [keepsTypes, Bool.and_eq_true] at h
    rw [run_cons]
    exact ih (hs.step h.1) h.2

end IsTyped

/--
In every run of a session that assigns nothing of another type to an attribute and deletes none of a
configuration itself, whatever else it does and whatever fails on the way, every configuration holds
values of the right types. It is valid or breaks a rule: checking it fails in no other way.
-/
theorem run_keeps_types (files : FileSystem) (log : Log.Setup)
    (h : keepsTypes { files, log } steps = true) :
    ∀ c ∈ (run { files, log } steps).configs,
      c.WellTyped
        ∧ ∀ f, c.validate = .error f →
          (∃ v, f = .validation (.violation v)) ∧ f.kind = "ConfigValidationError" := by
  have hstart : IsTyped { files, log } := by
    intro c hc
    cases hc
  intro c hc
  have htyped : c.WellTyped := hstart.run h c hc
  refine ⟨htyped, ?_⟩
  intro f hf
  rw [htyped.toIsWhole.validate_eq] at hf
  cases hvalidate : c.toConfig.validate with
  | ok u =>
    rw [hvalidate] at hf
    cases hf
  | error fault =>
    rcases Config.exists_violation_of_validate htyped.settings hvalidate with ⟨v, rfl⟩
    rw [hvalidate] at hf
    cases hf
    exact ⟨⟨v, rfl⟩, rfl⟩

def interruptedSteps : List Step :=
  [.new "a",
    .overlay "a" (.map [(.text "network",
      .map [(.text "max_peers", .integer (-1)), (.text "enable_mdns", .text "yes")])]),
    .setKey "a" "max_content_size" (.boolean true), .setKey "a" "metrics_port" (.integer 70000),
    .handle "h" none, .snapshot "h" "b", .environment "c" [("NODE_MAX_PEERS", "+7")] "NODE",
    .copy "a" "d", .view "a" "v", .delete "v" ["network"] "max_peers"]

theorem run_keeps_types_interrupted :
    keepsTypes { files := .empty } interruptedSteps = true
      ∧ (run { files := .empty } interruptedSteps).configs.map (·.get .maxPeers) =
        [.integer (-1), .integer 100, .integer 100, .integer 7, .integer (-1)]
      ∧ ∀ c ∈ (run { files := .empty } interruptedSteps).configs,
        c.WellTyped ∧ ∀ f, c.validate = .error f → ∃ v, f = .validation (.violation v) := by
  have h : keepsTypes { files := .empty } interruptedSteps = true := by decide +kernel
  refine ⟨h, rfl, ?_⟩
  intro c hc
  rcases run_keeps_types .empty .recording h c hc with ⟨htyped, hvalidate⟩
  exact ⟨htyped, fun f hf => (hvalidate f hf).1⟩

end Session
end NodeSettings
