import NodeSettings.Proofs.Load
import NodeSettings.Proofs.Session.Emission
import NodeSettings.Proofs.Session.Invariant
import NodeSettings.Proofs.Session.View

/-!
This module contains what holds of handles in every run of a session: their active configurations
are what was loaded last, and views of them do not change.
-/

namespace NodeSettings
namespace Session

variable {s s' start : Session} {t : Step} {steps done : List Step} {slot inner : Slot}
variable {k n : Nat}
variable {c : Config} {a : Aggregate}

theorem wellTyped_of_ofDocument {document : Value} (h : Config.ofDocument document = .ok c) :
    c.WellTyped ∧ c.validate = .ok () := by
  rcases Config.ofDocument_cases document with ⟨f, -, hresult⟩ | ⟨-, hvalid, hresult⟩
    | ⟨-, v, -, hresult⟩
  . rw [hresult] at h
    cases h
  . rw [hresult] at h
    cases h
    exact ⟨Config.wellTyped_default.overlay document, hvalid⟩
  . rw [hresult] at h
    cases h

theorem wellTyped_of_load {fs : FileSystem} {p : Path} (h : (ConfigFile.load fs p).1 = .ok c) :
    c.WellTyped ∧ c.validate = .ok () := by
  rw [ConfigFile.load_fst] at h
  have h := Except.bind_eq_ok_iff.mp h
  rcases h with ⟨document, -, h⟩
  rw [ConfigFile.ofDocument_fst] at h
  split at h
  . next hdocument =>
    cases h
    exact wellTyped_of_ofDocument hdocument
  . cases h
  . cases h

theorem wellTyped_of_loadFrom {source : Option Path} (h : (s.loadFrom source).1 = .ok c) :
    c.WellTyped ∧ c.validate = .ok () := by
  cases source with
  | none =>
    cases h
    exact ⟨Config.wellTyped_default, Config.validate_default⟩
  | some p => exact wellTyped_of_load h

theorem Delivers.wellTyped (h : s.Delivers t k a) : a.WellTyped ∧ a.validate = .ok () := by
  have hcoe {c : Config} (h : c.WellTyped ∧ c.validate = .ok ()) :
      (c : Aggregate).WellTyped ∧ (c : Aggregate).validate = .ok () := by
    refine ⟨Aggregate.wellTyped_coe h.1, ?_⟩
    rw [(Aggregate.isWhole_coe _).validate_eq, h.2]
    rfl
  cases h with
  | built h => exact hcoe (wellTyped_of_loadFrom h)
  | reloaded kept h => exact hcoe (wellTyped_of_loadFrom h)

def active (s : Session) (k : Nat) : Aggregate :=
  s.config (s.handleAt k).active

structure IsSound (s : Session) : Prop where
  closed : s.IsClosed
  isSealed : ∀ k < s.handles.length, s.IsSealed (s.handleAt k).active
  wellTyped : ∀ k < s.handles.length, (s.active k).WellTyped ∧ (s.active k).validate = .ok ()

theorem handleAt_eq_of_handles (h : s'.handles = s.handles) (k : Nat) :
    s'.handleAt k = s.handleAt k := by
  rw [handleAt, h, handleAt]

theorem handleAt_of_append {added : Handle} (h : s'.handles = s.handles ++ [added])
    (hk : k < s.handles.length) : s'.handleAt k = s.handleAt k := by
  simp only [handleAt, List.getD_eq_getElem?_getD, h]
  rw [List.getElem?_append_left hk]

theorem handleAt_added {added : Handle} (h : s'.handles = s.handles ++ [added]) :
    s'.handleAt s.handles.length = added := by
  simp [handleAt, h]

theorem handleAt_set_self {other : Handle} (h : s'.handles = s.handles.set k other)
    (hk : k < s.handles.length) : s'.handleAt k = other := by
  simp [handleAt, h, hk]

theorem handleAt_set_of_ne {other : Handle} {j : Nat} (h : s'.handles = s.handles.set k other)
    (hj : k ≠ j) : s'.handleAt j = s.handleAt j := by
  simp [handleAt, h, hj]

theorem Effect.handleAt_eq (h : s.Effect t s') (hk : k < s.handles.length)
    (hnot : ∀ c, ¬ s.Delivers t k c) : s'.handleAt k = s.handleAt k := by
  cases h with
  | stays h | keeps name slot offered h | adds name c h | changes n c owned h =>
    exact handleAt_eq_of_handles h.handles k
  | builds name source c delivers h => exact handleAt_of_append h.handles hk
  | reloads name j c there delivers h =>
    apply handleAt_set_of_ne h.handles
    rintro rfl
    exact hnot c delivers

theorem Effect.lt_or_delivers (h : s.Effect t s') (hk : k < s'.handles.length) :
    k < s.handles.length ∨ ∃ c, s.Delivers t k c := by
  cases h with
  | stays h | keeps name slot offered h | adds name c h | changes n c owned h =>
    rw [h.handles] at hk
    exact .inl hk
  | builds name source c delivers h =>
    rw [h.handles, List.length_append, List.length_singleton] at hk
    by_cases heq : k = s.handles.length
    . rw [heq]
      exact .inr ⟨c, delivers⟩
    . left
      omega
  | reloads name j c there delivers h =>
    rw [h.handles, List.length_set] at hk
    exact .inl hk

theorem Delivers.exists_has (hs : s.IsClosed) (h : s.Delivers t k a) :
    ∃ name slot handles, (s.step t).2.Has (s.configs ++ [a]) ((name, slot) :: s.slots) handles
      ∧ (∀ reach, slot = .config s.nextNumber reach → reach.isView = true)
      ∧ ((s.step t).2.handleAt k).active = s.nextNumber := by
  cases h with
  | @built dest path c h =>
    rw [← loadFrom_fresh] at h
    have hhas := handle_has h dest
    refine ⟨_, _, _, hhas, by simp, ?_⟩
    exact congrArg Handle.active (handleAt_added (s := s.fresh) hhas.handles)
  | @reloaded on dest k views c kept h =>
    rw [← loadFrom_fresh] at h
    have hhas := reload_has (s := s.fresh) kept h dest
    refine ⟨_, _, _, hhas, ?_, ?_⟩
    . intro reach heq
      cases heq
      rfl
    . exact congrArg Handle.active
        (handleAt_set_self (s := s.fresh) hhas.handles (hs.offers kept).isThere)

theorem Delivers.active_eq (hs : s.IsClosed) (h : s.Delivers t k a) :
    (s.step t).2.active k = a := by
  rcases h.exists_has hs with ⟨name, slot, handles, hhas, -, hactive⟩
  rw [active, hactive, config_added hhas.configs]

theorem Delivers.isSealed (hs : s.IsClosed) (h : s.Delivers t k a) :
    (s.step t).2.IsSealed ((s.step t).2.handleAt k).active := by
  rcases h.exists_has hs with ⟨name, slot, handles, hhas, hslot, hactive⟩
  rw [hactive]
  exact .of_added hs hhas.configs hhas.slots hslot

theorem IsSound.active_eq (hs : s.IsSound) (ht : s.Respects t) (hk : k < s.handles.length)
    (hnot : ∀ c, ¬ s.Delivers t k c) : (s.step t).2.active k = s.active k := by
  have heffect := hs.closed.effect_step ht
  rw [active, heffect.handleAt_eq hk hnot, (hs.isSealed k hk).config_of_effect heffect]
  rfl

theorem IsSound.step (hs : s.IsSound) (ht : s.Respects t) : (s.step t).2.IsSound := by
  have heffect := hs.closed.effect_step ht
  constructor
  . exact hs.closed.of_effect heffect
  . intro k hk
    by_cases hdelivers : ∃ c, s.Delivers t k c
    . rcases hdelivers with ⟨c, hc⟩
      exact hc.isSealed hs.closed
    -- A handle for which nothing is loaded was there before and is the same still.
    . have hnot := not_exists.mp hdelivers
      have hk' := (heffect.lt_or_delivers hk).resolve_right hdelivers
      rw [heffect.handleAt_eq hk' hnot]
      exact (hs.isSealed k hk').of_effect heffect
  . intro k hk
    by_cases hdelivers : ∃ c, s.Delivers t k c
    . rcases hdelivers with ⟨c, hc⟩
      rw [hc.active_eq hs.closed]
      exact hc.wellTyped
    . have hnot := not_exists.mp hdelivers
      have hk' := (heffect.lt_or_delivers hk).resolve_right hdelivers
      rw [hs.active_eq ht hk' hnot]
      exact hs.wellTyped k hk'

/-- No step of a run gets around views by a path that leaks. -/
def Respectful : Session → List Step → Prop
  | _, [] => True
  | s, t :: steps => s.Respects t ∧ Respectful (s.step t).2 steps

/-- The last time that a run loaded something for the handle of a number, it was this. -/
inductive LastDelivers (start : Session) : List Step → Nat → Aggregate → Prop where
  | now {steps : List Step} {t : Step} {k : Nat} {a : Aggregate}
    (h : (start.run steps).Delivers t k a) : LastDelivers start (steps ++ [t]) k a
  | before {steps : List Step} {t : Step} {k : Nat} {a : Aggregate}
    (h : LastDelivers start steps k a) (hnot : ∀ b, ¬ (start.run steps).Delivers t k b) :
    LastDelivers start (steps ++ [t]) k a

theorem IsSound.run (hs : s.IsSound) (h : s.Respectful steps) : (s.run steps).IsSound := by
  induction steps generalizing s with
  | nil => exact hs
  | cons t steps ih =>
    rw [run_cons]
    exact ih (hs.step h.1) h.2

theorem lastDelivers_concat (hs : (start.run done).IsSound) (ht : (start.run done).Respects t)
    (h : ∀ k < (start.run done).handles.length,
      start.LastDelivers done k ((start.run done).active k)) :
    ∀ k < (start.run (done ++ [t])).handles.length,
      start.LastDelivers (done ++ [t]) k ((start.run (done ++ [t])).active k) := by
  intro k hk
  rw [run_concat] at hk ⊢
  by_cases hdelivers : ∃ c, (start.run done).Delivers t k c
  . rcases hdelivers with ⟨c, hc⟩
    rw [hc.active_eq hs.closed]
    exact .now hc
  . have hnot := not_exists.mp hdelivers
    have hk' := ((hs.closed.effect_step ht).lt_or_delivers hk).resolve_right hdelivers
    rw [hs.active_eq ht hk' hnot]
    exact .before (h k hk') hnot

theorem lastDelivers_append (hs : (start.run done).IsSound)
    (hsteps : (start.run done).Respectful steps)
    (h : ∀ k < (start.run done).handles.length,
      start.LastDelivers done k ((start.run done).active k)) :
    ∀ k < (start.run (done ++ steps)).handles.length,
      start.LastDelivers (done ++ steps) k ((start.run (done ++ steps)).active k) := by
  -- The induction is on what is left of the run; what is done already is an accumulator.
  induction steps generalizing done with
  | nil => rwa [List.append_nil]
  | cons t steps ih =>
    have hdone : done ++ t :: steps = (done ++ [t]) ++ steps := by simp
    rw [hdone]
    apply ih
    . rw [run_concat]
      exact hs.step hsteps.1
    . rw [run_concat]
      exact hsteps.2
    . exact lastDelivers_concat hs hsteps.1 h

theorem IsSealed.run (hs : s.IsClosed) (h : s.Respectful steps) (hn : s.IsSealed n) :
    (s.run steps).config n = s.config n := by
  induction steps generalizing s with
  | nil => rfl
  | cons t steps ih =>
    have heffect := hs.effect_step h.1
    rw [run_cons, ih (hs.of_effect heffect) h.2 (hn.of_effect heffect),
      hn.config_of_effect heffect]

theorem Effect.source_eq (h : s.Effect t s') (hk : k < s.handles.length) :
    (s'.handleAt k).source = (s.handleAt k).source := by
  cases h with
  | stays h | keeps name slot offered h | adds name c h | changes n c owned h =>
    rw [handleAt_eq_of_handles h.handles]
  | builds name source c delivers h => rw [handleAt_of_append h.handles hk]
  | reloads name j c there delivers h =>
    by_cases hj : j = k
    . subst hj
      rw [handleAt_set_self h.handles there]
    . rw [handleAt_set_of_ne h.handles hj]

theorem source_run (hs : s.IsClosed) (h : s.Respectful steps) (hk : k < s.handles.length) :
    ((s.run steps).handleAt k).source = (s.handleAt k).source := by
  induction steps generalizing s with
  | nil => rfl
  | cons t steps ih =>
    have heffect := hs.effect_step h.1
    have hk' := Nat.lt_of_lt_of_le hk heffect.grows.handles
    rw [run_cons, ih (hs.of_effect heffect) h.2 hk', heffect.source_eq hk]

theorem hasMessage_reloadRecord (level : Nat) (message outcome : String) (e : Option Failure) :
    HasMessage (reloadRecord level message outcome e) :=
  ⟨_, rfl⟩

/-- What the loading of a configuration logs: nothing that looks like a record about a handle. -/
structure IsLoadRecord (r : Log.Record) : Prop where
  message : HasMessage r
  logger : r.logger = ConfigFile.loggerName
  level : r.level = Log.debugLevel ∨ r.level = Log.infoLevel ∨ r.level = Log.errorLevel

theorem isLoadRecord_of_mem_ofDocument {p : Path} {document : Value} :
    ∀ r ∈ (ConfigFile.ofDocument p document).2, IsLoadRecord r := by
  have hignored (keys : List Text) :
      ∀ r ∈ keys.map (ConfigFile.ignoredRecord p), IsLoadRecord r := by
    intro r hr
    rw [List.mem_map] at hr
    rcases hr with ⟨key, -, rfl⟩
    exact ⟨⟨_, rfl⟩, rfl, .inl rfl⟩
  unfold ConfigFile.ofDocument
  dsimp only
  intro r hr
  split at hr
  . cases hr
  . split at hr
    . rw [List.mem_append, List.mem_singleton] at hr
      rcases hr with hr | rfl
      . exact hignored _ r hr
      . exact ⟨⟨_, rfl⟩, rfl, .inr (.inl rfl)⟩
    . rw [List.mem_append, List.mem_singleton] at hr
      rcases hr with hr | rfl
      . exact hignored _ r hr
      . exact ⟨⟨_, rfl⟩, rfl, .inr (.inr rfl)⟩
    . exact hignored _ r hr

theorem isLoadRecord_of_mem_loadFrom {source : Option Path} :
    ∀ r ∈ (s.loadFrom source).2, IsLoadRecord r := by
  cases source with
  | none => simp [loadFrom]
  | some p =>
    unfold loadFrom ConfigFile.load
    dsimp only
    split
    . simp
    . exact isLoadRecord_of_mem_ofDocument

def isWarning (r : Log.Record) : Bool :=
  decide (r.level = Log.warningLevel)

def isOfHandle (r : Log.Record) : Bool :=
  decide (r.logger = handleLoggerName)

theorem filter_isWarning_loadFrom (s : Session) (source : Option Path) :
    (s.loadFrom source).2.filter isWarning = [] := by
  rw [List.filter_eq_nil_iff]
  intro r hr
  have hlevel := (isLoadRecord_of_mem_loadFrom r hr).level
  simp only [isWarning, decide_eq_true_eq]
  simp only [Log.debugLevel, Log.infoLevel, Log.errorLevel, Log.warningLevel] at hlevel ⊢
  omega

theorem filter_isOfHandle_loadFrom (s : Session) (source : Option Path) :
    (s.loadFrom source).2.filter isOfHandle = [] := by
  rw [List.filter_eq_nil_iff]
  intro r hr
  have hlogger := (isLoadRecord_of_mem_loadFrom r hr).logger
  rw [isOfHandle, hlogger]
  decide

/-- A reload that fails gives the failure of its loading and only adds one warning to the log. -/
structure KeepsActive (s : Session) (on dest : String) (source : Option Path) (e : Failure) :
    Prop where
  answer : (s.step (.reload on dest)).1 = .failed e none
  has : (s.step (.reload on dest)).2.Has s.configs s.slots s.handles
  emits : s.Emits ((s.loadFrom source).2 ++ [keptRecord e]) (s.step (.reload on dest)).2
  warnings : ((s.loadFrom source).2 ++ [keptRecord e]).filter isWarning = [keptRecord e]
  recorded : s.log = .recording →
    (s.step (.reload on dest)).2.records = (s.loadFrom source).2 ++ [keptRecord e]

/--
A reload that succeeds makes what has been loaded the active configuration of the handle and shows
it, changes no other handle, and adds one record of the logger of handles to the log.
-/
structure SwapsActive (s : Session) (on dest : String) (k : Nat) (source : Option Path)
    (c : Aggregate) : Prop where
  answer : (s.step (.reload on dest)).1 = .changed c.changed
  active : (s.step (.reload on dest)).2.active k = c
  others : ∀ j < s.handles.length, j ≠ k → (s.step (.reload on dest)).2.active j = s.active j
  view : (s.step (.reload on dest)).2.slot dest =
    .ok (.config ((s.step (.reload on dest)).2.handleAt k).active ⟨none, 1⟩)
  emits : s.Emits ((s.loadFrom source).2 ++ [reloadedRecord]) (s.step (.reload on dest)).2
  infos : ((s.loadFrom source).2 ++ [reloadedRecord]).filter isOfHandle = [reloadedRecord]
  recorded : s.log = .recording →
    (s.step (.reload on dest)).2.records = (s.loadFrom source).2 ++ [reloadedRecord]

theorem isKeepable_of_mem {r last : Log.Record} {source : Option Path}
    (hlast : HasMessage last ∧ Log.debugLevel ≤ last.level)
    (h : r ∈ (s.loadFrom source).2 ++ [last]) : HasMessage r ∧ Log.debugLevel ≤ r.level := by
  rw [List.mem_append, List.mem_singleton] at h
  rcases h with h | rfl
  . have hload := isLoadRecord_of_mem_loadFrom r h
    refine ⟨hload.message, ?_⟩
    have hlevel := hload.level
    simp only [Log.debugLevel, Log.infoLevel, Log.errorLevel] at hlevel ⊢
    omega
  . exact hlast

theorem step_reload_of_error {on : String} {views : Nat} {e : Failure}
    (hslot : s.slot on = .ok (.handle k views))
    (h : (s.loadFrom (s.handleAt k).source).1 = .error e) (dest : String) :
    s.step (.reload on dest) =
      (.failed e none,
        (s.fresh.emit (s.loadFrom (s.handleAt k).source).2).emit [keptRecord e]) := by
  rw [← loadFrom_fresh] at h ⊢
  show s.fresh.reload on dest = _
  rw [reload, handleOf_of_slot (s := s.fresh) hslot]
  have hsource : s.fresh.handleAt k = s.handleAt k := rfl
  dsimp only
  rw [hsource, h]
  rfl

theorem keepsActive_of_error {on : String} {views : Nat} {e : Failure}
    (hslot : s.slot on = .ok (.handle k views))
    (h : (s.loadFrom (s.handleAt k).source).1 = .error e) (dest : String) :
    s.KeepsActive on dest (s.handleAt k).source e := by
  have hstep := step_reload_of_error hslot h dest
  have hmessages : ∀ r ∈ (s.loadFrom (s.handleAt k).source).2, HasMessage r := by
    intro r hr
    exact (isLoadRecord_of_mem_loadFrom r hr).message
  have hemits : s.Emits ((s.loadFrom (s.handleAt k).source).2 ++ [keptRecord e])
      (s.step (.reload on dest)).2 := by
    rw [hstep]
    apply Emits.emit
    . have hfresh := s.emits_fresh.emit hmessages
      rwa [List.nil_append] at hfresh
    . intro r hr
      rw [List.mem_singleton] at hr
      rw [hr]
      apply hasMessage_reloadRecord
  constructor
  . rw [hstep]
  . rw [hstep]
    exact ((Has.refl s.fresh).emit _).emit _
  . exact hemits
  . rw [List.filter_append, filter_isWarning_loadFrom]
    rfl
  . intro hlog
    apply hemits.records_eq hlog
    intro r hr
    apply isKeepable_of_mem _ hr
    refine ⟨hasMessage_reloadRecord _ _ _ _, ?_⟩
    show (10 : Int) ≤ 30
    omega

theorem step_reload_of_ok {on : String} {views : Nat}
    (hslot : s.slot on = .ok (.handle k views))
    (h : (s.loadFrom (s.handleAt k).source).1 = .ok c) (dest : String) :
    s.step (.reload on dest) =
      (({ ((s.fresh.emit (s.loadFrom (s.handleAt k).source).2).addConfig c) with
          handles := s.handles.set k { s.handleAt k with active := s.nextNumber } }.emit
            [reloadedRecord]).keep dest (.config s.nextNumber ⟨none, 1⟩)).tell s.nextNumber := by
  rw [← loadFrom_fresh] at h ⊢
  show s.fresh.reload on dest = _
  rw [reload, handleOf_of_slot (s := s.fresh) hslot]
  have hsource : s.fresh.handleAt k = s.handleAt k := rfl
  dsimp only
  rw [hsource, h]
  simp
  rfl

theorem swapsActive_of_ok {on : String} {views : Nat} (hs : s.IsSound)
    (hslot : s.slot on = .ok (.handle k views))
    (h : (s.loadFrom (s.handleAt k).source).1 = .ok c) (dest : String) :
    s.SwapsActive on dest k (s.handleAt k).source c := by
  have hstep := step_reload_of_ok hslot h dest
  have hthere := (hs.closed.offers hslot).isThere
  have hfresh := h
  rw [← loadFrom_fresh] at hfresh
  have hhas := reload_has (s := s.fresh) hslot hfresh dest
  have hactive : ((s.step (.reload on dest)).2.handleAt k).active = s.nextNumber :=
    congrArg Handle.active (handleAt_set_self (s := s.fresh) hhas.handles hthere)
  have hconfig : (s.step (.reload on dest)).2.config s.nextNumber = c :=
    config_added (s := s.fresh) hhas.configs
  have hmessages : ∀ r ∈ (s.loadFrom (s.handleAt k).source).2, HasMessage r := by
    intro r hr
    exact (isLoadRecord_of_mem_loadFrom r hr).message
  have hemits : s.Emits ((s.loadFrom (s.handleAt k).source).2 ++ [reloadedRecord])
      (s.step (.reload on dest)).2 := by
    have hloaded := s.emits_fresh.emit hmessages
    rw [List.nil_append] at hloaded
    have hswapped : s.Emits (s.loadFrom (s.handleAt k).source).2
        { ((s.fresh.emit (s.loadFrom (s.handleAt k).source).2).addConfig c) with
          handles := s.handles.set k { s.handleAt k with active := s.nextNumber } } :=
      ⟨hloaded.outcome, hloaded.log⟩
    have hreloaded : ∀ r ∈ [reloadedRecord], HasMessage r := by
      intro r hr
      rw [List.mem_singleton] at hr
      rw [hr]
      apply hasMessage_reloadRecord
    have hall := hswapped.emit hreloaded
    rw [hstep]
    exact ⟨hall.outcome, hall.log⟩
  constructor
  . have hanswer : (s.step (.reload on dest)).1 =
        .changed ((s.step (.reload on dest)).2.config s.nextNumber).changed := by
      rw [hstep]
      rfl
    rw [hanswer, hconfig]
  . rw [active, hactive, hconfig]
  . intro j hj hne
    have hother : (s.step (.reload on dest)).2.handleAt j = s.handleAt j :=
      handleAt_set_of_ne (s := s.fresh) hhas.handles hne.symm
    rw [active, hother, active]
    exact config_eq_of_append (s := s.fresh) (hs.closed.active_lt hj) hhas.configs
  . rw [hactive, hstep]
    apply slot_keep_self
  . exact hemits
  . rw [List.filter_append, filter_isOfHandle_loadFrom]
    rfl
  . intro hlog
    apply hemits.records_eq hlog
    intro r hr
    apply isKeepable_of_mem _ hr
    refine ⟨hasMessage_reloadRecord _ _ _ _, ?_⟩
    show (10 : Int) ≤ 20
    omega

theorem step_handleView {on : String} {views : Nat} (hslot : s.slot on = .ok (.handle k views))
    (dest : String) :
    (s.step (.handleView on dest)).1 = .changed (s.active k).changed
      ∧ (s.step (.handleView on dest)).2.slot dest
        = .ok (.config (s.handleAt k).active ⟨none, 1⟩) := by
  have hstep : s.step (.handleView on dest) =
      (s.fresh.keep dest (.config (s.handleAt k).active ⟨none, 1⟩)).tell
        (s.handleAt k).active := by
    show s.fresh.handleView on dest = _
    rw [handleView, handleOf_of_slot (s := s.fresh) hslot]
    rfl
  rw [hstep]
  constructor
  . rfl
  . apply slot_keep_self

inductive IsOf (n : Nat) : Slot → Prop where
  | config (reach : Reach) : IsOf n (.config n reach)
  | value (v : Value) (views : Nat) : IsOf n (.value v views)
  | method (name : String) (views : Nat) : IsOf n (.method (.config n) name views)

theorem IsOf.of_isMember {name : String} (hslot : IsOf n slot) (h : s.IsMember name slot inner) :
    IsOf n inner := by
  cases h with
  | part | action | owner =>
    cases hslot
    constructor
  | value => constructor
  | handleAction | active | own => cases hslot
  | target hname htarget =>
    unfold Slot.target? at htarget
    split at htarget <;> cases htarget <;> cases hslot <;> constructor

theorem follow_eq_of_config (h : s'.config n = s.config n) (hslot : IsOf n slot)
    (names : List String) : s'.follow slot names = s.follow slot names := by
  have hattr {slot : Slot} (hslot : IsOf n slot) (name : String) :
      s'.attr slot name = s.attr slot name := by
    cases hslot with
    | config reach => simp only [attr, h]
    | value v views => rfl
    | method action views => rfl
  induction names generalizing slot with
  | nil => rfl
  | cons name names ih =>
    have hmember : s'.member slot name = s.member slot name := by
      simp only [member, hattr hslot]
    rw [Session.follow, Session.follow, hmember]
    cases hfound : s.member slot name with
    | error e => rfl
    | ok inner => exact ih (hslot.of_isMember (isMember_of_member hfound))

/-- Through all later steps a configuration, and so every view of it, shows what it has shown. -/
structure KeepsShowing (s : Session) (n : Nat) (later : List Step) : Prop where
  config : (s.run later).config n = s.config n
  follow : ∀ reach names,
    (s.run later).follow (.config n reach) names = s.follow (.config n reach) names

/--
The active configuration of a handle is of the types and within the bounds of its settings. A reload
that fails keeps it and logs one warning, one that succeeds replaces it and logs one record about
the handle. Views of it show the same through all later steps.
-/
structure HoldsLoaded (s : Session) (k : Nat) : Prop where
  wellTyped : (s.active k).WellTyped
  valid : (s.active k).validate = .ok ()
  view : ∀ on views dest, s.slot on = .ok (.handle k views) →
    (s.step (.handleView on dest)).1 = .changed (s.active k).changed
      ∧ (s.step (.handleView on dest)).2.slot dest = .ok (.config (s.handleAt k).active ⟨none, 1⟩)
  failure : ∀ on views dest e, s.slot on = .ok (.handle k views) →
    (s.loadFrom (s.handleAt k).source).1 = .error e →
    s.KeepsActive on dest (s.handleAt k).source e
  success : ∀ on views dest c, s.slot on = .ok (.handle k views) →
    (s.loadFrom (s.handleAt k).source).1 = .ok c →
    s.SwapsActive on dest k (s.handleAt k).source c
  source : ∀ later, s.Respectful later →
    ((s.run later).handleAt k).source = (s.handleAt k).source
  shows : ∀ later, s.Respectful later → s.KeepsShowing (s.handleAt k).active later
  escapes : ∀ on views setting v, s.slot on = .ok (.config (s.handleAt k).active ⟨none, views⟩) →
    (s.step (.put on (List.replicate views Slot.targetName ++ Part.wayToOwner none setting)
      setting.name v)).2.active k = (s.active k).set setting v
  loses : ∀ on views setting, s.slot on = .ok (.config (s.handleAt k).active ⟨none, views⟩) →
    (s.step (.delete on (List.replicate views Slot.targetName ++ Part.wayToOwner none setting)
      setting.name)).2.active k = (s.active k).remove (.setting setting)

theorem IsSound.holdsLoaded (hs : s.IsSound) (hk : k < s.handles.length) : s.HoldsLoaded k := by
  have hopens := opens_of_isWhole (hs.wellTyped k hk).1.toIsWhole
  have hlt := hs.closed.active_lt hk
  constructor
  . exact (hs.wellTyped k hk).1
  . exact (hs.wellTyped k hk).2
  . intro on views dest hslot
    exact step_handleView hslot dest
  . intro on views dest e hslot he
    exact keepsActive_of_error hslot he dest
  . intro on views dest c hslot hc
    exact swapsActive_of_ok hs hslot hc dest
  . intro later hlater
    exact source_run hs.closed hlater hk
  . intro later hlater
    have hconfig := (hs.isSealed k hk).run hs.closed hlater
    constructor
    . exact hconfig
    . intro reach names
      exact follow_eq_of_config hconfig (.config reach) names
  . intro on views setting v hslot
    rw [(hopens.target on none views setting hslot setting.mem_all).assign]
    exact config_setConfig_self (s := s.fresh) hlt _
  . intro on views setting hslot
    rw [(hopens.target on none views setting hslot setting.mem_all).delete]
    exact config_setConfig_self (s := s.fresh) hlt _

theorem isSound_start (files : FileSystem) (log : Log.Setup) : IsSound { files, log } := by
  constructor
  . constructor
    . intro name slot hmem
      cases hmem
    . intro h hmem
      cases hmem
  . intro k hk
    cases hk
  . intro k hk
    cases hk

/--
In every run of a session that does not get around views, the active configuration of every handle
is the one that was loaded last for it, and it is held as such.
-/
theorem handle_holds_last_loaded (files : FileSystem) (log : Log.Setup) {steps : List Step}
    (h : Respectful { files, log } steps) :
    ∀ k < (run { files, log } steps).handles.length,
      LastDelivers { files, log } steps k ((run { files, log } steps).active k)
        ∧ (run { files, log } steps).HoldsLoaded k := by
  have hstart := isSound_start files log
  intro k hk
  constructor
  . have hnone : ∀ j < (run { files, log } []).handles.length,
        LastDelivers { files, log } [] j ((run { files, log } []).active j) := by
      intro j hj
      cases hj
    exact lastDelivers_append (show (run { files, log } []).IsSound from hstart) h hnone k hk
  . exact (hstart.run h).holdsLoaded hk

def exampleSteps : List Step :=
  [.write "node.yml" "environment: production\n".toUTF8, .handle "h" (some "node.yml"),
    .handleView "h" "v", .write "node.yml" "environment: nowhere\n".toUTF8, .reload "h" "w",
    .put "v" ["network"] "max_peers" (.integer 7), .snapshot "h" "s",
    .assign "s" [] "environment" (.text "staging")]

theorem handle_holds_last_loaded_nowhere :
    Respectful { files := .empty } exampleSteps
      ∧ 0 < (run { files := .empty } exampleSteps).handles.length
      ∧ LastDelivers { files := .empty } exampleSteps 0
        ((run { files := .empty } exampleSteps).active 0)
      ∧ (run { files := .empty } exampleSteps).HoldsLoaded 0 := by
  have hrespectful : Respectful { files := .empty } exampleSteps := by
    refine ⟨?_, ?_, ?_, ?_, ?_, ?_, ?_, ?_, trivial⟩
    all_goals
      intro on names slot hwalk hslot
      cases hwalk
    . right
      cases slot with
      | handle k views => cases views <;> rfl
      | _ => rfl
    . have hcopy : (((run { files := .empty } (exampleSteps.take 7)).slot "s").map isRaw).toOption
          = some true := by
        decide +kernel
      rw [show (run { files := .empty } (exampleSteps.take 7)).slot "s" = .ok slot from hslot]
        at hcopy
      exact .inl (Option.some.inj hcopy)
  have hthere : 0 < (run { files := .empty } exampleSteps).handles.length := by
    decide +kernel
  exact ⟨hrespectful, hthere, handle_holds_last_loaded .empty .recording hrespectful 0 hthere⟩

def openedSteps : List Step :=
  [.handle "h" none, .handleView "h" "v"]
    ++ [.put "v" [Slot.targetName] "environment" (.text "x")]

theorem not_handle_holds_last_loaded_opened :
    LastDelivers { files := .empty } openedSteps 0 Config.default
      ∧ (run { files := .empty } openedSteps).active 0 ≠ Config.default := by
  constructor
  . have hbuilt : LastDelivers { files := .empty } [.handle "h" none] 0 Config.default :=
      @LastDelivers.now _ [] _ _ _ (.built rfl)
    have hviewed : LastDelivers { files := .empty } [.handle "h" none, .handleView "h" "v"] 0
        Config.default := by
      apply LastDelivers.before (t := .handleView "h" "v") hbuilt
      intro b hb
      cases hb
    apply LastDelivers.before hviewed
    intro b hb
    cases hb
  . intro h
    have hset : ((run { files := .empty } openedSteps).active 0).get .environment = .text "x" := rfl
    rw [h] at hset
    injection hset with htext
    exact absurd htext (by decide +kernel)

end Session
end NodeSettings
