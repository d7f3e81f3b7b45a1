import NodeSettings.Proofs.Key
import NodeSettings.Proofs.Session.Independence

/-!
This module contains what keys come to in a session: assigning to the keys of a configuration and
reading them obeys the laws of keys, and every way to a key gives the same value, whether it goes
through the configuration itself or through views of it.
-/

namespace NodeSettings

theorem Value.shown_of_has {kind : Kind} {v : Value} (h : kind.Has v) : v.shown = v := by
  cases h <;> rfl

theorem Aggregate.WellTyped.get_seen {a : Aggregate} (h : a.WellTyped) {k : Key} (hk : k ∈ Key.all)
    (r : Reach) : (r.seen a).get k.setting = a.get k.setting := by
  unfold Reach.seen
  split
  . exact Value.shown_of_has (h.settings.has_get hk)
  . rfl

def Aggregate.tried (a : Aggregate) (name : String) (v : Value) : Aggregate :=
  { a with toConfig := a.toConfig.tried name v }

theorem Aggregate.IsWhole.tried {a : Aggregate} (h : a.IsWhole) (name : String) (v : Value) :
    (a.tried name v).IsWhole :=
  ⟨h.sections, h.fields⟩

theorem Aggregate.WellTyped.getKey_seen {a : Aggregate} (h : a.WellTyped) (r : Reach)
    (kind : Kind) (name : String) (fallback : Value) :
    (r.seen a).getKey kind name fallback = .ok (a.toConfig.getKey kind name fallback) := by
  rw [(r.isWhole_seen h.toIsWhole).getKey_eq, Config.getKey, Config.getKey]
  split
  . next k hk =>
    rw [Key.lookup?_eq_some_iff] at hk
    rw [h.get_seen hk.1.1 r]
  . rfl

namespace Session

variable {s : Session} {on name other : String} {n views : Nat} {kind : Kind} {k : Key}
variable {v w fallback : Value}

theorem step_getKey (hslot : s.slot on = .ok (.config n ⟨none, views⟩))
    (h : (s.config n).getKey kind name fallback = .ok v) :
    (s.step (.getKey on kind name fallback)).1 = .value (.value v) := by
  have hwhole : s.fresh.whole on ("get_" ++ kind.name) = .ok (n, s.config n) := by
    rw [whole, target, slot_fresh, hslot]
    rfl
  show (s.fresh.getKey on kind name fallback).1 = _
  rw [getKey, hwhole]
  dsimp only
  rw [h]

theorem readKey_none (r : Nat) (a : Aggregate) (kind : Kind) (name : String) (fallback : Value) :
    Reach.readKey ⟨none, r⟩ a kind name fallback =
      (Reach.seen ⟨none, r⟩ a).getKey kind name fallback := by
  cases hkey : Key.lookup? name kind with
  | none => simp only [Reach.readKey, Aggregate.getKey, hkey]
  | some k => simp only [Reach.readKey, Aggregate.getKey, hkey]

theorem step_readKey (hslot : s.slot on = .ok (.config n ⟨none, views⟩))
    (h : (Reach.seen ⟨none, views⟩ (s.config n)).getKey kind name fallback = .ok v) :
    (s.step (.readKey on kind name fallback)).1 = .value (.value v) := by
  show (s.fresh.readKey on kind name fallback).1 = _
  rw [readKey, slot_fresh, hslot]
  dsimp only
  rw [readKey_none, show (Reach.seen _ (s.fresh.config n)).getKey kind name fallback = _ from h]

theorem config_step_readKey (s : Session) (on : String) (kind : Kind) (name : String)
    (fallback : Value) (m : Nat) :
    (s.step (.readKey on kind name fallback)).2.config m = s.config m :=
  config_eq_of_configs (perform_has (s := s.fresh) rfl).configs m

section

variable (hslot : s.slot on = .ok (.config n {}))

include hslot

theorem step_setKey_of_error {f : KeyFault} (h : Key.accepting name v = .error f) :
    s.step (.setKey on name v) = s.fresh.failTelling n (.key f) := by
  show s.fresh.setKey on name v = _
  rw [setKey, slot_fresh, hslot]
  dsimp only
  rw [Reach.keyTarget, h]
  rfl

theorem step_setKey_of_ok (hwhole : (s.config n).IsWhole)
    (h : Key.accepting name v = .ok k) :
    s.step (.setKey on name v) =
      (s.fresh.setConfig n ((s.config n).set k.setting v)).tell n := by
  have howns : Reach.owns {} (s.fresh.config n) k.setting = .ok () := by
    have hfresh : (s.fresh.config n).IsWhole := hwhole
    unfold Reach.owns
    dsimp only
    split
    . rfl
    . rw [Aggregate.need_eq_ok (hfresh.fields _), (Reach.isWhole_seen {} hfresh).sections]
      rfl
    . contradiction
    . contradiction
  show s.fresh.setKey on name v = _
  rw [setKey, slot_fresh, hslot]
  dsimp only
  rw [Reach.keyTarget, h]
  dsimp only
  rw [howns]
  rfl

theorem exists_failed_of_fault {fault : KeyFault} (h : Key.accepting name v = .error fault) :
    ∃ f changes, (s.step (.setKey on name v)).1 = .failed f changes
      ∧ f.kind = (Failure.key fault).kind := by
  rw [step_setKey_of_error hslot h]
  exact ⟨_, _, rfl, rfl⟩

theorem slot_step_setKey (name : String) (v : Value) :
    (s.step (.setKey on name v)).2.slot on = .ok (.config n {}) := by
  rw [(change_step s _).slot_eq (by simp [dest?]), hslot]

variable (hwhole : (s.config n).IsWhole)

include hwhole

theorem step_readKey_eq (kind : Kind) (name : String) (fallback : Value) :
    (s.step (.readKey on kind name fallback)).1 =
      .value (.value ((s.config n).toConfig.getKey kind name fallback)) :=
  step_readKey hslot (hwhole.getKey_eq kind name fallback)

theorem config_step_setKey (hn : n < s.configs.length) (name : String) (v : Value) :
    (s.step (.setKey on name v)).2.config n = (s.config n).tried name v := by
  cases h : Key.accepting name v with
  | error f =>
    rw [step_setKey_of_error hslot h, Aggregate.tried, Config.tried_of_accepting h]
    rfl
  | ok k =>
    rcases Key.accepting_eq_ok_iff.mp h with ⟨named, hv⟩
    rw [step_setKey_of_ok hslot hwhole h, hwhole.set_eq, Aggregate.tried,
      Config.tried_of_has named hv]
    exact config_setConfig_self (s := s.fresh) hn _

theorem config_run_setKey_setKey (hn : n < s.configs.length) (name other : String) (v w : Value) :
    (s.run [.setKey on name v, .setKey on other w]).config n =
      ((s.config n).tried name v).tried other w := by
  have hlength := (change_step s (.setKey on name v)).length_le
  have hconfig := config_step_setKey hslot hwhole hn name v
  rw [← hconfig]
  apply config_step_setKey (slot_step_setKey hslot name v)
  . rw [hconfig]
    exact hwhole.tried name v
  . exact Nat.lt_of_lt_of_le hn hlength

end

/-- A value is assigned to a key: the key reads as the value, and everything else as before. -/
structure Assigns (s : Session) (on : String) (n : Nat) (k : Key) (name : String) (v : Value) :
    Prop where
  done : ∃ changes, (s.step (.setKey on name v)).1 = .changed changes
  read : ∀ fallback, ((s.step (.setKey on name v)).2.step (.readKey on k.kind name fallback)).1 =
    .value (.value v)
  others : ∀ (l : Key) other fallback, l.IsRegistered other → l ≠ k →
    ((s.step (.setKey on name v)).2.step (.readKey on l.kind other fallback)).1 =
      (s.step (.readKey on l.kind other fallback)).1
  settings : ∀ x, x ≠ k.setting →
    ((s.step (.setKey on name v)).2.config n).get x = (s.config n).get x
  sections : ((s.step (.setKey on name v)).2.config n).inPlace = (s.config n).inPlace
  fields : ((s.step (.setKey on name v)).2.config n).lacks = (s.config n).lacks

/-- The laws of the keys of a configuration, in the steps of a session that assign and read. -/
structure KeyLaws (s : Session) (on : String) (n : Nat) : Prop where
  unknown : ∀ name v,
    (∃ f changes, (s.step (.setKey on name v)).1 = .failed f changes ∧ f.kind = "KeyError") ↔
      ∀ k : Key, ¬ k.IsRegistered name
  wrongKind : ∀ name v,
    (∃ f changes, (s.step (.setKey on name v)).1 = .failed f changes ∧ f.kind = "TypeError") ↔
      ∃ k : Key, k.IsRegistered name ∧ ¬ k.kind.Has v
  refused : ∀ name v f changes, (s.step (.setKey on name v)).1 = .failed f changes →
    ∀ m, (s.step (.setKey on name v)).2.config m = s.config m
  assigned : ∀ (k : Key) name v, k.IsRegistered name → k.kind.Has v → s.Assigns on n k name v
  restores : ∀ (k : Key) name v fallback, k.IsRegistered name →
    (s.step (.readKey on k.kind name fallback)).1 = .value (.value v) →
    (∃ changes, (s.step (.setKey on name v)).1 = .changed changes)
      ∧ (s.step (.setKey on name v)).2.config n = s.config n
  overrides : ∀ (k : Key) name v w, k.IsRegistered name → k.kind.Has w →
    (s.run [.setKey on name v, .setKey on name w]).config n =
      (s.run [.setKey on name w]).config n
  commutes : ∀ name other v w, name ≠ other →
    (s.run [.setKey on name v, .setKey on other w]).config n =
      (s.run [.setKey on other w, .setKey on name v]).config n
  fallback : ∀ kind name fallback, (∀ k : Key, k.IsRegistered name → k.kind ≠ kind) →
    (s.step (.readKey on kind name fallback)).1 = .value (.value fallback)
  reading : ∀ kind name fallback m,
    (s.step (.readKey on kind name fallback)).2.config m = s.config m

section

variable (hslot : s.slot on = .ok (.config n {}))
variable (hwhole : (s.config n).IsWhole)

include hslot hwhole

theorem exists_fault_of_failed {f : Failure} {changes : Option Changes}
    (h : (s.step (.setKey on name v)).1 = .failed f changes) :
    ∃ fault, Key.accepting name v = .error fault ∧ f = .key fault := by
  cases haccepting : Key.accepting name v with
  | error fault =>
    rw [step_setKey_of_error hslot haccepting] at h
    cases h
    exact ⟨fault, rfl, rfl⟩
  | ok k =>
    rw [step_setKey_of_ok hslot hwhole haccepting] at h
    cases h

theorem step_setKey_unknown_iff :
    (∃ f changes, (s.step (.setKey on name v)).1 = .failed f changes ∧ f.kind = "KeyError") ↔
      ∀ k : Key, ¬ k.IsRegistered name := by
  have haccepts := Key.accepts name v
  constructor
  . rintro ⟨f, changes, hfailed, hkind⟩
    rcases exists_fault_of_failed hslot hwhole hfailed with ⟨fault, hfault, rfl⟩
    rw [hfault] at haccepts
    cases haccepts with
    | unknown h => exact h
    | wrongKind named h => simp [Failure.kind] at hkind
  . intro h
    rw [← Key.find?_eq_none_iff] at h
    have hfault : Key.accepting name v = .error (.unknown name) := by
      rw [Key.accepting, h]
      rfl
    exact exists_failed_of_fault hslot hfault

theorem step_setKey_wrongKind_iff :
    (∃ f changes, (s.step (.setKey on name v)).1 = .failed f changes ∧ f.kind = "TypeError") ↔
      ∃ k : Key, k.IsRegistered name ∧ ¬ k.kind.Has v := by
  have haccepts := Key.accepts name v
  constructor
  . rintro ⟨f, changes, hfailed, hkind⟩
    rcases exists_fault_of_failed hslot hwhole hfailed with ⟨fault, hfault, rfl⟩
    rw [hfault] at haccepts
    cases haccepts with
    | unknown h => simp [Failure.kind] at hkind
    | wrongKind named h => exact ⟨_, named, h⟩
  . rintro ⟨k, named, hv⟩
    generalize hresult : Key.accepting name v = result at haccepts
    cases haccepts with
    | unknown h => exact absurd named (h k)
    | wrongKind found h => exact exists_failed_of_fault hslot hresult
    | accepted found h =>
      cases found.unique named
      exact absurd h hv

theorem configs_of_failed {f : Failure} {changes : Option Changes}
    (h : (s.step (.setKey on name v)).1 = .failed f changes) (m : Nat) :
    (s.step (.setKey on name v)).2.config m = s.config m := by
  rcases exists_fault_of_failed hslot hwhole h with ⟨fault, hfault, -⟩
  rw [step_setKey_of_error hslot hfault]
  rfl

theorem exists_changed (named : k.IsRegistered name) (h : k.kind.Has v) :
    ∃ changes, (s.step (.setKey on name v)).1 = .changed changes := by
  rw [step_setKey_of_ok hslot hwhole (Key.accepting_eq_ok_iff.mpr ⟨named, h⟩)]
  exact ⟨_, rfl⟩

variable (hn : n < s.configs.length)

include hn

theorem step_readKey_step_setKey (kind : Kind) (name other : String) (v fallback : Value) :
    ((s.step (.setKey on name v)).2.step (.readKey on kind other fallback)).1 =
      .value (.value (((s.config n).toConfig.tried name v).getKey kind other fallback)) := by
  have hconfig := config_step_setKey hslot hwhole hn name v
  rw [step_readKey_eq (slot_step_setKey hslot name v), hconfig]
  . rfl
  . rw [hconfig]
    exact hwhole.tried name v

theorem assigns (named : k.IsRegistered name) (h : k.kind.Has v) : s.Assigns on n k name v := by
  have htried := Config.tried_of_has named h (s.config n).toConfig
  constructor
  . exact exists_changed hslot hwhole named h
  . intro fallback
    rw [step_readKey_step_setKey hslot hwhole hn, Config.getKey_of_isRegistered named, htried,
      Config.get_set_self]
  . intro l other fallback registered hne
    have hname : name ≠ other := by
      rintro rfl
      exact hne (registered.unique named)
    rw [step_readKey_step_setKey hslot hwhole hn, Config.getKey_tried_of_ne hname,
      step_readKey_eq hslot hwhole]
  . intro x hx
    rw [config_step_setKey hslot hwhole hn]
    show ((s.config n).toConfig.tried name v).get x = _
    rw [htried, Config.get_set_of_ne _ _ hx]
  . rw [config_step_setKey hslot hwhole hn]
    rfl
  . rw [config_step_setKey hslot hwhole hn]
    rfl

end

/--
The keys of a configuration are independent of each other: just the values of its kind can be
assigned to a key, the key is then read as what was assigned last, and no other key and no other
setting is touched by it. A reader that a key does not suit gives its fallback.
-/
theorem keys_obey_laws (hslot : s.slot on = .ok (.config n {})) (hn : n < s.configs.length)
    (htyped : (s.config n).WellTyped) : s.KeyLaws on n := by
  have hwhole := htyped.toIsWhole
  constructor
  . intro name v
    exact step_setKey_unknown_iff hslot hwhole
  . intro name v
    exact step_setKey_wrongKind_iff hslot hwhole
  . intro name v f changes h
    exact configs_of_failed hslot hwhole h
  . intro k name v named h
    exact assigns hslot hwhole hn named h
  . intro k name v fallback named hread
    rw [step_readKey_eq hslot hwhole, Config.getKey_of_isRegistered named] at hread
    cases hread
    have hv : k.kind.Has ((s.config n).get k.setting) := htyped.settings.has_get named.1
    refine ⟨exists_changed hslot hwhole named hv, ?_⟩
    rw [config_step_setKey hslot hwhole hn]
    exact Aggregate.ext (Config.tried_get htyped.settings named) (fun _ => rfl) fun _ => rfl
  . intro k name v w named h
    rw [config_run_setKey_setKey hslot hwhole hn]
    refine Eq.trans ?_ (config_step_setKey hslot hwhole hn name w).symm
    exact Aggregate.ext (Config.tried_tried named h _ v) (fun _ => rfl) fun _ => rfl
  . intro name other v w h
    rw [config_run_setKey_setKey hslot hwhole hn, config_run_setKey_setKey hslot hwhole hn]
    exact Aggregate.ext (Config.tried_comm h _ v w) (fun _ => rfl) fun _ => rfl
  . intro kind name fallback h
    rw [step_readKey_eq hslot hwhole, Config.getKey_of_kind_ne h]
  . intro kind name fallback m
    exact config_step_readKey s on kind name fallback m

def started : Session :=
  run { files := .empty } [.new "a"]

theorem keys_obey_laws_started :
    started.slot "a" = .ok (.config 0 {}) ∧ 0 < started.configs.length
      ∧ (started.config 0).WellTyped
      ∧ (∃ f changes, (started.step (.setKey "a" "max_peers" (.boolean true))).1 =
        .failed f changes ∧ f.kind = "TypeError")
      ∧ (∃ f changes, (started.step (.setKey "a" "enable_relay" (.boolean true))).1 =
        .failed f changes ∧ f.kind = "KeyError")
      ∧ started.Assigns "a" 0 ⟨.integer, .maxPeers⟩ "max_peers" (.integer 7) := by
  have hthere : 0 < started.configs.length := by decide +kernel
  have htyped : (started.config 0).WellTyped := Aggregate.wellTyped_coe Config.wellTyped_default
  have hlaws : started.KeyLaws "a" 0 := keys_obey_laws rfl hthere htyped
  have hpeers : Key.IsRegistered ⟨.integer, .maxPeers⟩ "max_peers" := ⟨by decide, rfl⟩
  refine ⟨rfl, hthere, htyped, ?_, ?_, ?_⟩
  . exact (hlaws.wrongKind _ _).mpr ⟨_, hpeers, by rintro ⟨⟩⟩
  . rw [hlaws.unknown, ← Key.find?_eq_none_iff]
    decide +kernel
  . exact hlaws.assigned _ _ _ hpeers (.integer 7)

/--
Whether a key is read by the method or by the function, and whether from a configuration, from a
view of it or from a view of a view, the value is the same: the one that the attributes lead to if
there is a key of the kind under the name, and the fallback if there is none.
-/
theorem key_routes_agree (htyped : (s.config n).WellTyped) (kind : Kind) (name : String)
    (fallback : Value) :
    ∃ v, (s.config n).Finds kind name fallback v
      ∧ ∀ on slot, s.slot on = .ok slot → Presents n none slot →
        (s.step (.getKey on kind name fallback)).1 = .value (.value v)
          ∧ (s.step (.readKey on kind name fallback)).1 = .value (.value v)
          ∧ ∀ k : Key, k.IsRegistered name → k.kind = kind →
            (s.step (.get on (Part.wayTo none k.setting))).1 = .value (.value v) := by
  refine ⟨(s.config n).toConfig.getKey kind name fallback, Config.finds_getKey _ _ _ _, ?_⟩
  intro on slot hslot hpresents
  rcases hpresents.exists_views with ⟨views, rfl⟩
  refine ⟨?_, ?_, ?_⟩
  . exact step_getKey hslot (htyped.toIsWhole.getKey_eq kind name fallback)
  . exact step_readKey hslot (htyped.getKey_seen _ kind name fallback)
  . rintro k named rfl
    rw [step_get_wayTo hslot k.setting.mem_all (htyped.toIsWhole.has none k.setting),
      htyped.get_seen named.1, Config.getKey_of_isRegistered named]

theorem key_routes_agree_viewedTwice :
    (viewedTwice.config 0).WellTyped
      ∧ Presents 0 none (.config 0 {}) ∧ Presents 0 none (.config 0 ⟨none, 2⟩)
      ∧ (viewedTwice.step (.getKey "a" .integer "max_peers" (.integer 5))).1 =
        .value (.value (.integer 100))
      ∧ (viewedTwice.step (.readKey "w" .integer "max_peers" (.integer 5))).1 =
        .value (.value (.integer 100))
      ∧ (viewedTwice.step (.readKey "w" .boolean "max_peers" (.boolean true))).1 =
        .value (.value (.boolean true)) := by
  have htyped : (viewedTwice.config 0).WellTyped :=
    Aggregate.wellTyped_coe Config.wellTyped_default
  have hplain : Presents 0 none (.config 0 {}) := .part
  have hviewed : Presents 0 none (.config 0 ⟨none, 2⟩) := .view (.view .part)
  have hpeers : Key.IsRegistered ⟨.integer, .maxPeers⟩ "max_peers" := ⟨by decide, rfl⟩
  rcases key_routes_agree htyped .integer "max_peers" (.integer 5) with ⟨v, hfinds, hv⟩
  rcases key_routes_agree htyped .boolean "max_peers" (.boolean true) with ⟨w, hmissing, hw⟩
  have hvalue : v = .integer 100 := by
    cases hfinds with
    | there named h =>
      cases named.unique hpeers
      rfl
    | missing h => exact absurd rfl (h _ hpeers)
  have hfallback : w = .boolean true := by
    cases hmissing with
    | there named h =>
      cases named.unique hpeers
      cases h
    | missing h => rfl
  subst hvalue hfallback
  exact ⟨htyped, hplain, hviewed, (hv "a" _ rfl hplain).1, (hv "w" _ rfl hviewed).2.1,
    (hw "w" _ rfl hviewed).2.1⟩

end Session
end NodeSettings
