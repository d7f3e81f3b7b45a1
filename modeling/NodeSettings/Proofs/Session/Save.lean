import NodeSettings.Proofs.Gather
import NodeSettings.Proofs.Session.Emission
import NodeSettings.Proofs.Session.View

/-!
This module contains what saving comes to in a session: all of a configuration is in the file, or
nothing has changed, and it makes no difference whether a configuration or a view of it is saved.
-/

namespace NodeSettings
namespace Session

variable {s : Session} {on other : String} {path : Text} {n : Nat} {p : Part} {reach : Reach}
variable {slot slot' : Slot}

theorem step_save (hslot : s.slot on = .ok (.config n reach)) (path : Text) :
    s.step (.save on path) = s.fresh.written
      (ConfigFile.saveGathered s.files (reach.document (s.config n)) (.ofText path)) := by
  show s.fresh.save on path = _
  rw [save, slot_fresh, hslot]
  rfl

def ofResult : Except Failure Path → Answer
  | .ok p => .saved p
  | .error e => .failed e none

theorem written_fst (s : Session) (w : ConfigFile.Written) :
    (s.written w).1 = ofResult w.result := by
  unfold written
  cases w.result with
  | error e => rfl
  | ok p => rfl

theorem written_files (s : Session) (w : ConfigFile.Written) :
    (s.written w).2.files = ({ s with files := w.files }.emit w.records).files := by
  unfold written
  cases w.result with
  | error e => rfl
  | ok p => rfl

/--
A configuration is saved or it is not, as the answer tells, and the files are those after it, but
for what the log adds to its own. No configuration changes. With something in it that documents have
no form for, at any depth, it is not saved. A path that no file can have makes it fail in a way of
its own; if there is no character of number 0 in it, this is that it cannot be encoded. So does a
field that has been deleted.
-/
structure SavesOrKeeps (s : Session) (on : String) (path : Text) (n : Nat)
    (w : ConfigFile.Written) : Prop where
  saves : (s.config n).IsComplete none →
    ConfigFile.Saves s.files (s.config n).document (.ofText path) w.result w.files
  lacking : ¬ (s.config n).IsComplete none → ∃ e, w.result = .error e ∧ e.kind = "AttributeError"
  answer : (s.step (.save on path)).1 = ofResult w.result
  entry : ∀ place, ¬ s.log.IsAt place →
    (s.step (.save on path)).2.files.entry place = w.files.entry place
  refused : ∀ e, w.result = .error e → (s.step (.save on path)).2.files = s.files
  unstorable : (s.config n).IsComplete none → ∀ x v, (s.config n).Holds x →
    x.written.Contains v → v.isStorable = false →
    ∃ e, w.result = .error e ∧ e.kind = "ConfigIOError" ∧ e.configPath? = some (.ofText path)
  escapes_iff : (∃ e, w.result = .error e ∧ e.kind ≠ "ConfigIOError") ↔
    ¬ (s.config n).IsComplete none ∨ (∃ fault, (Path.ofText path).fault? = some fault)
      ∧ ∀ x v, (s.config n).Holds x → x.written.Contains v → v.isStorable = true
  encoding : (s.config n).IsComplete none → ∀ e, w.result = .error e → e.kind ≠ "ConfigIOError" →
    (Path.ofText path).hasNul = false → e.kind = "UnicodeEncodeError"
  configs : (s.step (.save on path)).2.configs = s.configs

theorem isStorable_document_iff {a : Aggregate} (hcomplete : a.IsComplete none) :
    (∀ v, a.document.Contains v → v.isStorable = true) ↔
      ∀ x v, a.Holds x → x.written.Contains v → v.isStorable = true := by
  constructor
  . intro h x v hx hv
    exact h v (Aggregate.contains_document hx hv)
  . intro h v hv
    cases Aggregate.writes_of_contains_document hcomplete hv with
    | mapping entries => rfl
    | name t => rfl
    | held hx hv => exact h _ _ hx hv

theorem saveGathered_of_isComplete {a : Aggregate} (h : a.IsComplete none) (fs : FileSystem)
    (p : Path) :
    ConfigFile.saveGathered fs (Reach.document {} a) p =
      ConfigFile.saveDocument fs a.document p := by
  rw [Reach.document_eq_ok_iff.mpr ⟨h, rfl⟩]
  rfl

theorem saves_saveGathered {a : Aggregate} (hdigits : a.HasShortIntegers) (fs : FileSystem)
    (p : Path) (hcomplete : a.IsComplete none) :
    ConfigFile.Saves fs a.document p
      (ConfigFile.saveGathered fs (Reach.document {} a) p).result
      (ConfigFile.saveGathered fs (Reach.document {} a) p).files := by
  rw [saveGathered_of_isComplete hcomplete]
  exact ConfigFile.saves_saveDocument (hdigits.document hcomplete)

theorem saveGathered_of_lacking {a : Aggregate} (h : ¬ a.IsComplete none) (fs : FileSystem)
    (p : Path) :
    ∃ e, ConfigFile.saveGathered fs (Reach.document {} a) p = ⟨.error e, [], fs⟩
      ∧ e.kind = "AttributeError" := by
  cases hdocument : Reach.document {} a with
  | error e => exact ⟨e, rfl, Reach.kind_of_document hdocument⟩
  | ok v => exact absurd (Reach.document_eq_ok_iff.mp hdocument).1 h

theorem saveGathered_of_error {fs : FileSystem} {document : Except Failure Value} {p : Path}
    {e : Failure} (h : (ConfigFile.saveGathered fs document p).result = .error e) :
    (ConfigFile.saveGathered fs document p).records = []
      ∧ (ConfigFile.saveGathered fs document p).files = fs := by
  cases document with
  | error e => exact ⟨rfl, rfl⟩
  | ok v => exact (ConfigFile.saveDocument_outcome fs v p).of_error h

/--
Saving is all or nothing, whatever a configuration holds and whatever there is in the files: the
file at the path has the whole document and nothing else has changed, or nothing has changed at all.
The failure is the one of saving and names the path, unless it is the path itself that no file can
have, then it is a failure of texts, or a field has been deleted.
-/
theorem save_all_or_nothing (hslot : s.slot on = .ok (.config n {}))
    (hdigits : (s.config n).HasShortIntegers) :
    s.SavesOrKeeps on path n
      (ConfigFile.saveGathered s.files (Reach.document {} (s.config n)) (.ofText path)) := by
  have hstep := step_save hslot path
  have hsaves := saves_saveGathered hdigits s.files (.ofText path)
  constructor
  . exact hsaves
  . intro hlacks
    rcases saveGathered_of_lacking hlacks s.files (.ofText path) with ⟨e, he, hkind⟩
    exact ⟨e, by rw [he], hkind⟩
  . rw [hstep, written_fst]
  . intro place hplace
    rw [hstep, written_files]
    exact entry_emit (s := { s.fresh with files := _ }) hplace _
  . intro e he
    rcases saveGathered_of_error he with ⟨hrecords, hfiles⟩
    rw [hstep, written_files, hrecords, hfiles]
    rfl
  . intro hcomplete x v hx hv hunstorable
    exact (hsaves hcomplete).exists_error (Aggregate.contains_document hx hv) hunstorable
  . by_cases hcomplete : (s.config n).IsComplete none
    . rw [(hsaves hcomplete).escapes_iff, isStorable_document_iff hcomplete]
      exact (or_iff_right (not_not_intro hcomplete)).symm
    . rcases saveGathered_of_lacking hcomplete s.files (.ofText path) with ⟨e, he, hkind⟩
      refine ⟨fun _ => .inl hcomplete, fun _ => ⟨e, by rw [he], ?_⟩⟩
      rw [hkind]
      decide
  . intro hcomplete e he hkind hnul
    have hfails := hsaves hcomplete
    rw [he] at hfails
    exact hfails.kind_of_escapes hkind hnul
  . rw [hstep]
    exact (written_has s.fresh _).configs

def oddObject : Foreign :=
  ⟨0, 0, "object", "<object>", "<object>", by decide +kernel⟩

def heldObject : Value :=
  .list [.map [(.text "peer", .foreign oddObject)]]

def hinderedSteps : List Step :=
  [.write "c.yml" "environment: testing".toUTF8, .new "a", .new "b",
    .assign "a" [] "network" heldObject]

def hindered : Session :=
  run { files := .empty } hinderedSteps

theorem save_all_or_nothing_hindered :
    hindered.slot "a" = .ok (.config 0 {}) ∧ hindered.slot "b" = .ok (.config 1 {})
      ∧ (hindered.config 0).HasShortIntegers ∧ (hindered.config 1).HasShortIntegers
      ∧ (∃ e, (hindered.step (.save "a" "c.yml")).1 = .failed e none ∧ e.kind = "ConfigIOError"
        ∧ e.configPath? = some (.ofText "c.yml"))
      ∧ (hindered.step (.save "a" "c.yml")).2.files = hindered.files
      ∧ (∃ e, (hindered.step (.save "b" ⟨[.surrogate 0]⟩)).1 = .failed e none
        ∧ e.kind = "UnicodeEncodeError")
      ∧ (hindered.step (.save "b" "c.yml")).1 = .saved (.ofText "c.yml")
      ∧ ∃ text, Yaml.write Config.default.document = .ok text
        ∧ (hindered.step (.save "b" "c.yml")).2.files.entry (Text.octets "c.yml" :: FileSystem.work)
          = some (.file text.toUTF8) := by
  have hpeers : heldObject.HasShortIntegers := by
    have hname : (Value.text "peer").HasShortIntegers := .of_parts nofun nofun
    have hpeer : (Value.foreign oddObject).HasShortIntegers := .of_parts nofun nofun
    have hmap : (Value.map [(.text "peer", .foreign oddObject)]).HasShortIntegers :=
      .of_parts nofun (List.forall_mem_cons.mpr ⟨hname, List.forall_mem_singleton.mpr hpeer⟩)
    exact .of_parts nofun (List.forall_mem_singleton.mpr hmap)
  have hdefault : (hindered.config 1).HasShortIntegers := Config.hasShortIntegers_default
  have hdigits : (hindered.config 0).HasShortIntegers :=
    Config.hasShortIntegers_default.assign hpeers (.sect .network)
  have hfirst : hindered.slot "a" = .ok (.config 0 {}) := rfl
  have hsecond : hindered.slot "b" = .ok (.config 1 {}) := rfl
  have hrefused := @save_all_or_nothing hindered "a" "c.yml" 0 hfirst hdigits
  have hsaved := @save_all_or_nothing hindered "b" "c.yml" 1 hsecond hdefault
  have hlost := @save_all_or_nothing hindered "b" ⟨[.surrogate 0]⟩ 1 hsecond hdefault
  have hheld : (hindered.config 0).Holds heldObject := .inPlace (x := .network) rfl rfl
  have hcomplete : (hindered.config 0).IsComplete none :=
    ⟨fun _ _ => Bool.and_false _, fun _ _ _ => rfl⟩
  have hwhole : (hindered.config 1).IsComplete none :=
    (Aggregate.isWhole_coe Config.default).isComplete none
  have hobject : heldObject.written.Contains (.foreign oddObject) :=
    .part (.head _) (.part (.tail _ (.head _)) (.self _))
  have hstorable : ∀ v, (hindered.config 1).document.Contains v → v.isStorable = true :=
    fun v hv => Config.wellTyped_default.isStorable hv
  have hlocate : hindered.files.locate (.ofText "c.yml") =
      .ok (Text.octets "c.yml" :: FileSystem.work) := by
    decide +kernel
  have hfree : hindered.files.entry (Text.octets "c.yml" :: FileSystem.work) ≠
      some .directory := by
    have hfile : hindered.files.entry (Text.octets "c.yml" :: FileSystem.work) =
        some (.file "environment: testing".toUTF8) := rfl
    simp [hfile]
  have hparts := (isStorable_document_iff hwhole).mp hstorable
  rcases hrefused.unstorable hcomplete _ _ hheld hobject rfl with ⟨e, he, hkind, hpath⟩
  rcases (hsaved.saves hwhole).exists_text hstorable hlocate hfree with
    ⟨text, hok, hwrite, hcontent⟩
  rcases hlost.escapes_iff.mpr (.inr ⟨⟨_, rfl⟩, hparts⟩) with ⟨f, hf, hother⟩
  refine ⟨hfirst, hsecond, hdigits, hdefault, ⟨e, ?_, hkind, hpath⟩, hrefused.refused e he,
    ⟨f, ?_, hlost.encoding hwhole f hf hother (by decide)⟩, ?_, text, hwrite, ?_⟩
  . rw [hrefused.answer, he, ofResult]
  . rw [hlost.answer, hf, ofResult]
  . rw [hsaved.answer, hok, ofResult]
  . rw [hsaved.entry, hcontent]
    have hlog : hindered.log = .recording := rfl
    simp [Log.Setup.IsAt, hlog, Log.Setup.recording]

/-- What a name is saved as is what is gathered from its attributes. -/
structure SavesGathered (s : Session) (on : String) (path : Text) (n : Nat) (reach : Reach) : Prop
    where
  gathers : ∃ document, Reach.Gathers (s.config n) (.object reach) document
  saves : ∀ document, Reach.Gathers (s.config n) (.object reach) document →
    s.step (.save on path) =
      s.fresh.written (ConfigFile.saveDocument s.files document (.ofText path))

theorem savesGathered (htyped : (s.config n).WellTyped) (hslot : s.slot on = .ok (.config n reach))
    (path : Text) : s.SavesGathered on path n reach := by
  rcases htyped.exists_document reach with ⟨gathered, hdocument, -⟩
  have hgathers := Reach.gathers_document hdocument
  constructor
  . exact ⟨gathered, hgathers⟩
  . intro document hother
    rw [step_save hslot, hdocument, hother.unique hgathers]
    rfl

theorem step_save_of_wellTyped (htyped : (s.config n).WellTyped)
    (hslot : s.slot on = .ok (.config n reach)) (path : Text) :
    s.step (.save on path) = s.fresh.written
      (ConfigFile.saveDocument s.files ((s.config n).partDocument reach.part)
        (.ofText path)) := by
  rcases htyped.exists_document reach with ⟨gathered, hdocument, hwrite⟩
  rw [step_save hslot, hdocument, ← ConfigFile.saveDocument_congr hwrite]
  rfl

/--
A configuration is saved through a view of it, or through a view of a view, with just what comes of
saving it itself: the same answer, the same files and the same records. Each is saved as what is
gathered from its own attributes, which for a view are views and fixed lists.
-/
theorem save_through_views (htyped : (s.config n).WellTyped) (hslot : s.slot on = .ok slot)
    (hother : s.slot other = .ok slot') (h : Presents n p slot) (h' : Presents n p slot')
    (path : Text) :
    s.step (.save on path) = s.step (.save other path)
      ∧ ∃ reach, slot = .config n reach ∧ s.SavesGathered on path n reach := by
  rcases h.exists_views with ⟨views, rfl⟩
  rcases h'.exists_views with ⟨views', rfl⟩
  refine ⟨?_, _, rfl, savesGathered htyped hslot path⟩
  rw [step_save_of_wellTyped htyped hslot, step_save_of_wellTyped htyped hother]

def peered : Session :=
  viewedTwice.run [.appendPeer "a" (.text "p")]

theorem save_through_views_peered :
    (peered.config 0).WellTyped ∧ peered.slot "w" = .ok (.config 0 ⟨none, 2⟩)
      ∧ peered.slot "a" = .ok (.config 0 {})
      ∧ Presents 0 none (.config 0 ⟨none, 2⟩) ∧ Presents 0 none (.config 0 {})
      ∧ peered.step (.save "w" "c.yml") = peered.step (.save "a" "c.yml")
      ∧ (peered.step (.save "w" "missing/c.yml")).1 =
        (peered.step (.save "a" "missing/c.yml")).1 := by
  have htyped : (peered.config 0).WellTyped :=
    (Aggregate.wellTyped_coe Config.wellTyped_default).set
      (s := .bootstrapPeers) (v := .list [.text "p"]) rfl
  have hview : Presents 0 none (.config 0 ⟨none, 2⟩) := .view (.view .part)
  have hplain : Presents 0 none (.config 0 {}) := .part
  have hviewed : peered.slot "w" = .ok (.config 0 ⟨none, 2⟩) := rfl
  have hslot : peered.slot "a" = .ok (.config 0 {}) := rfl
  have hsaved := save_through_views htyped hviewed hslot hview hplain
  refine ⟨htyped, hviewed, hslot, hview, hplain, (hsaved "c.yml").1, ?_⟩
  rw [(hsaved "missing/c.yml").1]

end Session
end NodeSettings
