import NodeSettings.Proofs.Schema
import NodeSettings.Session.Step

/-!
This module contains what a step of a session does to the configurations, to what is kept under
names and to the handles: where it writes, what it keeps and under which name, and what it loads.
-/

namespace NodeSettings

theorem Value.inner_ne_list (v : Value) (name : String) (items : List Value) :
    v.inner name ≠ .ok (.list items) := by
  have hnumber (n : Int) : numberAttribute? n name ≠ some (.list items) := by
    unfold numberAttribute?
    split <;> nofun
  have hfloat (w : Value) (hw : w ≠ .list items) : floatAttribute? w name ≠ some (.list items) := by
    unfold floatAttribute?
    split <;> simp [hw]
  have hduration (d : Duration) : durationAttribute? d name ≠ some (.list items) := by
    unfold durationAttribute?
    split <;> nofun
  have hinner : v.inner? name ≠ some (.list items) := by
    unfold inner?
    split
    . exact hnumber _
    . exact hnumber _
    . exact hfloat _ nofun
    . exact hfloat _ nofun
    . exact hduration _
    . nofun
  unfold inner
  split
  . next w hw =>
    rw [hw] at hinner
    simpa using hinner
  . nofun

namespace Reach

variable {r inner : Reach} {a : Aggregate} {name : String}

theorem isView_of_member (h : r.member a name = .ok (.object inner)) :
    inner.isView = r.isView := by
  unfold member at h
  rw [Except.bind_eq_ok_iff] at h
  rcases h with ⟨m, -, h⟩
  split at h
  . cases h
  . rcases Except.unit_bind_eq_ok_iff.mp h with ⟨-, h⟩
    split at h
    . cases h
    . split at h <;> cases h
      cases hview : r.isView with
      | true => simp [isView]
      | false => simp [isView]

theorem isView_of_assignable {f : Field} (h : r.assignable name = .ok f) : r.isView = false := by
  unfold assignable at h
  cases hview : r.isView with
  | true => simp [hview] at h
  | false => rfl

theorem isView_of_deletable {f : Field} (h : r.deletable a name = .ok f) : r.isView = false := by
  unfold deletable at h
  cases hview : r.isView with
  | true => simp [hview] at h
  | false => rfl

theorem isView_of_keyTarget {v : Value} {s : Setting} (h : r.keyTarget a name v = .ok s) :
    r.isView = false := by
  unfold keyTarget at h
  split at h
  . cases h
  . rw [Except.bind_eq_ok_iff] at h
    rcases h with ⟨-, -, h⟩
    cases hview : r.isView with
    | true => simp [hview] at h
    | false => rfl

/-- What a list is appended to is no attribute of a value, and no list that a view shows. -/
theorem isView_of_appended {s : Setting} {v peers : Value}
    (h : ((r.seen a).read s).bind (Session.appended v) = .ok peers) : r.isView = false := by
  rcases Except.bind_eq_ok_iff.mp h with ⟨before, hread, happended⟩
  unfold Session.appended at happended
  split at happended
  . next items =>
    cases hview : r.isView with
    | false => rfl
    | true =>
      unfold Aggregate.read at hread
      rcases Except.unit_bind_eq_ok_iff.mp hread with ⟨-, hread⟩
      split at hread
      . exact absurd hread (Value.inner_ne_list _ _ _)
      . rcases Except.unit_bind_eq_ok_iff.mp hread with ⟨-, hread⟩
        simp only [seen, hview, if_true, Except.pure_eq_ok, Except.ok.injEq] at hread
        have hshown : (a.get s).shown = .list items := hread
        cases hvalue : a.get s <;> simp [hvalue, Value.shown] at hshown
  . cases happended

end Reach

namespace Session

variable {s s' : Session} {t : Step} {slot : Slot} {k n : Nat} {c : Config}

structure Has (s : Session) (configs : List Aggregate) (slots : List (String × Slot))
    (handles : List Handle) : Prop where
  configs : s.configs = configs
  slots : s.slots = slots
  handles : s.handles = handles

theorem Has.refl (s : Session) : s.Has s.configs s.slots s.handles :=
  ⟨rfl, rfl, rfl⟩

theorem emit_has (s : Session) (records : List Log.Record) :
    (s.emit records).Has s.configs s.slots s.handles := by
  unfold emit
  cases hemit : s.emit? records with
  | error e => exact .refl s
  | ok out =>
    unfold emit? at hemit
    rw [Except.bind_eq_ok_iff] at hemit
    rcases hemit with ⟨_, -, h⟩
    cases h
    exact ⟨rfl, rfl, rfl⟩

@[simp]
theorem emit_configs (s : Session) (records : List Log.Record) :
    (s.emit records).configs = s.configs :=
  (s.emit_has records).configs

@[simp]
theorem emit_slots (s : Session) (records : List Log.Record) :
    (s.emit records).slots = s.slots :=
  (s.emit_has records).slots

@[simp]
theorem emit_handles (s : Session) (records : List Log.Record) :
    (s.emit records).handles = s.handles :=
  (s.emit_has records).handles

@[simp]
theorem emit_nextNumber (s : Session) (records : List Log.Record) :
    (s.emit records).nextNumber = s.nextNumber := by
  simp [nextNumber]

theorem Has.emit {configs : List Aggregate} {slots : List (String × Slot)} {handles : List Handle}
    (h : s.Has configs slots handles) (records : List Log.Record) :
    (s.emit records).Has configs slots handles := by
  constructor
  . rw [emit_configs, h.configs]
  . rw [emit_slots, h.slots]
  . rw [emit_handles, h.handles]

theorem has_of_eq (h : s' = s) : s'.Has s.configs s.slots s.handles := by
  rw [h]
  exact .refl s

theorem written_has (s : Session) (w : ConfigFile.Written) :
    (s.written w).2.Has s.configs s.slots s.handles := by
  have hfiles : Has { s with files := w.files } s.configs s.slots s.handles := ⟨rfl, rfl, rfl⟩
  unfold written
  dsimp only
  split
  . exact hfiles.emit _
  . exact hfiles.emit _

theorem save_has (s : Session) (on : String) (path : Text) :
    (s.save on path).2.Has s.configs s.slots s.handles := by
  unfold save
  dsimp only
  split
  . exact .refl s
  . apply written_has
  . apply written_has
  . exact .refl s

theorem makeDirectory_has (s : Session) (path : Text) :
    (s.makeDirectory path).2.Has s.configs s.slots s.handles := by
  unfold makeDirectory
  split
  . exact ⟨rfl, rfl, rfl⟩
  . exact ⟨rfl, rfl, rfl⟩

theorem write_has (s : Session) (path : Text) (content : ByteArray) :
    (s.write path content).2.Has s.configs s.slots s.handles := by
  unfold write
  split
  . exact .refl s
  . exact ⟨rfl, rfl, rfl⟩

theorem logRecord_has (s : Session) (r : Log.Record) :
    (s.logRecord r).2.Has s.configs s.slots s.handles := by
  unfold logRecord
  dsimp only
  split
  . exact ⟨rfl, rfl, rfl⟩
  . split
    . exact ⟨rfl, rfl, rfl⟩
    . split
      . exact ⟨rfl, rfl, rfl⟩
      . exact ⟨rfl, rfl, rfl⟩

theorem configure_has (s : Session) (o : Log.Options) :
    (s.configure o).2.Has s.configs s.slots s.handles := by
  unfold configure
  dsimp only
  split
  . exact ⟨rfl, rfl, rfl⟩
  . exact ⟨rfl, rfl, rfl⟩

def isPassive : Step → Bool
  | .state _ | .equal .. | .validate _ | .getKey .. | .readKey .. | .write .. | .read _
  | .makeDirectory _ | .isThere _ | .save .. | .create .. | .get .. | .hash _ | .describe _
  | .configure _ | .log .. | .readLog _ => true
  | _ => false

theorem perform_has (h : isPassive t = true) :
    (s.perform t).2.Has s.configs s.slots s.handles := by
  unfold perform
  cases t with
  | write path content => apply write_has
  | makeDirectory path => apply makeDirectory_has
  | save on path => apply save_has
  | create path force => apply written_has
  | configure o => apply configure_has
  | log logger level template arguments extras => apply logRecord_has
  | isThere path => exact .refl s
  | state on =>
    apply has_of_eq
    dsimp only [state]
    split <;> rfl
  | equal left right =>
    apply has_of_eq
    dsimp only [equal]
    split
    . rfl
    . rfl
    . split <;> rfl
  | validate on =>
    apply has_of_eq
    dsimp only [validate]
    split
    . rfl
    . split <;> rfl
  | getKey on kind name fallback =>
    apply has_of_eq
    dsimp only [getKey]
    split
    . rfl
    . split <;> rfl
  | readKey on kind name fallback =>
    apply has_of_eq
    dsimp only [readKey]
    split
    . rfl
    . split <;> rfl
    . split <;> rfl
  | read path =>
    apply has_of_eq
    dsimp only [read]
    split <;> rfl
  | get on names =>
    apply has_of_eq
    dsimp only [get]
    split <;> rfl
  | hash on =>
    apply has_of_eq
    dsimp only [hash]
    split <;> rfl
  | describe on =>
    apply has_of_eq
    dsimp only [describe]
    split
    . rfl
    . split <;> rfl
  | readLog path =>
    apply has_of_eq
    dsimp only [readLog]
    split <;> rfl
  | _ => cases h

@[simp]
theorem loadFrom_fresh (s : Session) (source : Option Path) :
    s.fresh.loadFrom source = s.loadFrom source := by
  cases source <;> rfl

theorem exists_mem_of_slot {name : String} (h : s.slot name = .ok slot) :
    (name, slot) ∈ s.slots := by
  unfold Session.slot at h
  split at h
  . next kept hkept =>
    cases h
    rw [List.lookup_eq_some_iff] at hkept
    rcases hkept with ⟨before, after, hslots, -⟩
    rw [hslots]
    simp
  . cases h

@[simp]
theorem slot_keep_self (s : Session) (name : String) (slot : Slot) :
    (s.keep name slot).slot name = .ok slot := by
  simp [Session.slot, keep]

theorem reached_eq {on : String} (h : s.slot on = .ok slot) (names : List String) :
    s.reached on names = s.follow slot names := by
  rw [reached, h, Except.ok_bind]

theorem reached_eq_ok_iff {on : String} {names : List String} {owner : Slot} :
    s.reached on names = .ok owner ↔
      ∃ slot, s.slot on = .ok slot ∧ s.follow slot names = .ok owner :=
  Except.bind_eq_ok_iff

theorem slot_of_target {on missing : String} {reach : Reach}
    (h : s.target on missing = .ok (n, reach)) : s.slot on = .ok (.config n reach) := by
  unfold target at h
  split at h
  . cases h
  . next hslot =>
    cases h
    exact hslot
  . cases h

theorem slot_of_handleOf {on missing : String} {h : Handle}
    (hof : s.handleOf on missing = .ok (k, h)) :
    h = s.handleAt k ∧ ∃ views, s.slot on = .ok (.handle k views) := by
  unfold handleOf at hof
  split at hof
  . cases hof
  . next views hslot =>
    cases hof
    exact ⟨rfl, views, hslot⟩
  . cases hof

theorem handleOf_of_slot {on : String} {views : Nat} (h : s.slot on = .ok (.handle k views))
    (missing : String) : s.handleOf on missing = .ok (k, s.handleAt k) := by
  rw [handleOf, h]
  rfl

def place? : Step → Option (String × List String)
  | .assign on names _ _ | .put on names _ _ | .delete on names _ => some (on, names)
  | .appendPeer on _ | .overlay on _ | .setKey on _ _ => some (on, [])
  | _ => none

def dest? : Step → Option String
  | .new dest | .copy _ dest | .parse dest _ | .environment dest _ _ | .processEnvironment dest _ _
  | .load _ dest | .view _ dest | .sect _ _ dest | .handle dest _ | .handleView _ dest
  | .snapshot _ dest | .reload _ dest => some dest
  | _ => none

/-- A step reaches the configuration of a number for writing, and that not through a view. -/
def WritesTo (s : Session) (t : Step) (n : Nat) : Prop :=
  ∃ on names reach, place? t = some (on, names)
    ∧ s.reached on names = .ok (.config n reach) ∧ reach.isView = false

inductive Shares (s : Session) : Step → Slot → Prop where
  | view {on dest : String} {slot : Slot} (h : s.slot on = .ok slot) :
    Shares s (.view on dest) slot.viewed
  | sect {on name dest : String} {slot : Slot} (h : s.reached on [name] = .ok slot) :
    Shares s (.sect on name dest) slot
  | active {on dest : String} {k views : Nat} (h : s.slot on = .ok (.handle k views)) :
    Shares s (.handleView on dest) (.config (s.handleAt k).active ⟨none, 1⟩)

/-- A step calls the loader of the handle of a number, which gives a configuration. -/
inductive Delivers (s : Session) : Step → Nat → Aggregate → Prop where
  | built {dest : String} {path : Option Text} {c : Config}
    (h : (s.loadFrom (path.map Path.ofText)).1 = .ok c) :
    Delivers s (.handle dest path) s.handles.length c
  | reloaded {on dest : String} {k views : Nat} {c : Config}
    (kept : s.slot on = .ok (.handle k views))
    (h : (s.loadFrom (s.handleAt k).source).1 = .ok c) : Delivers s (.reload on dest) k c

/-- What a step does besides what it does to files and the log. -/
inductive Change (s : Session) (t : Step) (s' : Session) : Prop where
  | stays (h : s'.Has s.configs s.slots s.handles)
  | keeps (name : String) (slot : Slot) (under : dest? t = some name) (shares : s.Shares t slot)
    (h : s'.Has s.configs ((name, slot) :: s.slots) s.handles)
  | adds (name : String) (c : Aggregate) (under : dest? t = some name)
    (h : s'.Has (s.configs ++ [c]) ((name, .config s.nextNumber {}) :: s.slots) s.handles)
  | writes (n : Nat) (c : Aggregate) (target : s.WritesTo t n)
    (h : s'.Has (s.configs.set n c) s.slots s.handles)
  | builds (name : String) (source : Option Path) (c : Aggregate) (under : dest? t = some name)
    (delivers : s.Delivers t s.handles.length c)
    (h : s'.Has (s.configs ++ [c]) ((name, .handle s.handles.length 0) :: s.slots)
      (s.handles ++ [⟨source, s.nextNumber⟩]))
  | reloads (on name : String) (k views : Nat) (c : Aggregate) (under : dest? t = some name)
    (kept : s.slot on = .ok (.handle k views)) (delivers : s.Delivers t k c)
    (h : s'.Has (s.configs ++ [c]) ((name, .config s.nextNumber ⟨none, 1⟩) :: s.slots)
      (s.handles.set k { s.handleAt k with active := s.nextNumber }))

theorem Change.refl (s : Session) (t : Step) : s.Change t s :=
  .stays (.refl s)

theorem change_emit (s : Session) (t : Step) (records : List Log.Record) :
    s.Change t (s.emit records) :=
  .stays (s.emit_has records)

theorem writesTo_of_slot {on : String} {reach : Reach} (hplace : place? t = some (on, []))
    (hslot : s.slot on = .ok (.config n reach)) (hview : reach.isView = false) :
    s.WritesTo t n :=
  ⟨on, [], reach, hplace, reached_eq hslot [], hview⟩

theorem change_assignTo {on name : String} {names : List String} {v : Value} {owner : Slot}
    (hplace : place? t = some (on, names)) (hreached : s.reached on names = .ok owner)
    (h : s.assignTo owner name v = .ok s') : s.Change t s' := by
  unfold assignTo at h
  split at h
  . next n reach =>
    rw [Except.bind_eq_ok_iff] at h
    rcases h with ⟨setting, hsetting, h⟩
    cases h
    exact .writes n _ ⟨on, names, reach, hplace, hreached, Reach.isView_of_assignable hsetting⟩
      ⟨rfl, rfl, rfl⟩
  . split at h
    . cases h
    . split at h
      . cases h
      . cases h
        exact .refl s t
  . cases h
  . cases h

theorem change_assign (s : Session) (on name : String) (names : List String) (v : Value) :
    s.Change (.assign on names name v) (s.assign on names name v).2 := by
  unfold assign
  split
  . exact .refl s _
  . next slot hslot =>
    have hok : ∀ s', ((s.follow slot names).bind fun owner => s.assignTo owner name v) = .ok s' →
        s.Change (.assign on names name v) s' := by
      intro s' h
      have h := Except.bind_eq_ok_iff.mp h
      rcases h with ⟨owner, hfollow, h⟩
      rw [← reached_eq hslot] at hfollow
      exact change_assignTo rfl hfollow h
    split
    . exact .refl s _
    . next h => exact hok _ h
    . exact .refl s _
    . next h => exact hok _ h

theorem change_put (s : Session) (on name : String) (names : List String) (v : Value) :
    s.Change (.put on names name v) (s.put on names name v).2 := by
  unfold put
  split
  . exact .refl s _
  . next s' h =>
    have h := Except.bind_eq_ok_iff.mp h
    rcases h with ⟨owner, hreached, h⟩
    exact change_assignTo rfl hreached h

theorem change_deleteFrom {on name : String} {names : List String} {owner : Slot}
    (hplace : place? t = some (on, names)) (hreached : s.reached on names = .ok owner)
    (h : s.deleteFrom owner name = .ok s') : s.Change t s' := by
  unfold deleteFrom at h
  split at h
  . next n reach =>
    rw [Except.bind_eq_ok_iff] at h
    rcases h with ⟨field, hfield, h⟩
    cases h
    exact .writes n _ ⟨on, names, reach, hplace, hreached, Reach.isView_of_deletable hfield⟩
      ⟨rfl, rfl, rfl⟩
  . cases h
  . cases h
  . cases h

theorem change_delete (s : Session) (on name : String) (names : List String) :
    s.Change (.delete on names name) (s.delete on names name).2 := by
  unfold delete
  split
  . exact .refl s _
  . next s' h =>
    have h := Except.bind_eq_ok_iff.mp h
    rcases h with ⟨owner, hreached, h⟩
    exact change_deleteFrom rfl hreached h

theorem change_appendPeer (s : Session) (on : String) (v : Value) :
    s.Change (.appendPeer on v) (s.appendPeer on v).2 := by
  unfold appendPeer
  split
  . exact .refl s _
  . next n reach htarget =>
    split
    . exact .refl s _
    . split
      . exact .refl s _
      . next peers hpeers =>
        have hview := Reach.isView_of_appended hpeers
        exact .writes n _ (writesTo_of_slot rfl (slot_of_target htarget) hview) ⟨rfl, rfl, rfl⟩

theorem overlaid_snd (s : Session) (number : Nat) (ignored : List Text)
    (obstacle : Option Failure) : (s.overlaid number ignored obstacle).2 = s := by
  unfold overlaid
  split <;> rfl

theorem change_overlay (s : Session) (on : String) (document : Value) :
    s.Change (.overlay on document) (s.overlay on document).2 := by
  unfold overlay
  split
  . exact .refl s _
  . next n reach htarget =>
    dsimp only
    split
    . split
      . exact .refl s _
      . rw [overlaid_snd]
        exact .refl s _
    . next hview =>
      have hview : reach.isView = false := by simpa using hview
      have hwrites : s.WritesTo (.overlay on document) n :=
        writesTo_of_slot rfl (slot_of_target htarget) hview
      split
      . exact .writes n _ hwrites ⟨rfl, rfl, rfl⟩
      . rw [overlaid_snd]
        exact .writes n _ hwrites ⟨rfl, rfl, rfl⟩

theorem change_setKey (s : Session) (on name : String) (v : Value) :
    s.Change (.setKey on name v) (s.setKey on name v).2 := by
  unfold setKey
  split
  . exact .refl s _
  . next n reach hslot =>
    split
    . exact .refl s _
    . next setting hsetting =>
      have hview := Reach.isView_of_keyTarget hsetting
      exact .writes n _ (writesTo_of_slot rfl hslot hview) ⟨rfl, rfl, rfl⟩
  . split
    . exact .refl s _
    . exact .refl s _

theorem change_view (s : Session) (on dest : String) :
    s.Change (.view on dest) (s.view on dest).2 := by
  unfold view
  split
  . exact .refl s _
  . next slot hslot => exact .keeps dest _ rfl (.view hslot) ⟨rfl, rfl, rfl⟩

theorem change_sect (s : Session) (on name dest : String) :
    s.Change (.sect on name dest) (s.sect on name dest).2 := by
  unfold sect
  split
  . exact .refl s _
  . next slot hslot => exact .keeps dest _ rfl (.sect hslot) ⟨rfl, rfl, rfl⟩

theorem change_handleView (s : Session) (on dest : String) :
    s.Change (.handleView on dest) (s.handleView on dest).2 := by
  unfold handleView
  split
  . exact .refl s _
  . next k h hof =>
    rcases slot_of_handleOf hof with ⟨rfl, views, hslot⟩
    exact .keeps dest _ rfl (.active hslot) ⟨rfl, rfl, rfl⟩

def makes? : Step → Option String
  | .new dest | .copy _ dest | .parse dest _ | .environment dest _ _ | .processEnvironment dest _ _
  | .load _ dest | .snapshot _ dest => some dest
  | _ => none

/-- What such a step comes to: it fails and leaves all as it is, or there is a new configuration. -/
inductive Makes (s : Session) (dest : String) : Outcome → Prop where
  | fails {f : Failure} {s' : Session} (h : s'.Has s.configs s.slots s.handles) :
    Makes s dest (.failed f none, s')
  | adds {c : Aggregate} {s' : Session}
    (h : s'.Has (s.configs ++ [c]) ((dest, .config s.nextNumber {}) :: s.slots) s.handles) :
    Makes s dest (.changed c.changed, s')

theorem makes_keepTelling (h : s'.Has s.configs s.slots s.handles) (dest : String)
    (c : Aggregate) : s.Makes dest (s'.keepTelling dest c) := by
  have hnumber : s'.nextNumber = s.nextNumber := congrArg List.length h.configs
  have hadded : (s'.keepConfig dest c).config s'.nextNumber = c := by
    simp [keepConfig, keep, addConfig, config, nextNumber]
  rw [keepTelling, tell, changes, hadded]
  apply Makes.adds
  constructor
  . show s'.configs ++ [c] = _
    rw [h.configs]
  . show (dest, Slot.config s'.nextNumber {}) :: s'.slots = _
    rw [hnumber, h.slots]
  . exact h.handles

theorem makes_environment (s : Session) (dest : String) (env : Environment) (leader : String) :
    s.Makes dest (s.environment dest env leader) := by
  unfold environment
  dsimp only
  split
  . exact .fails (s.emit_has _)
  . exact makes_keepTelling (s.emit_has _) dest _

theorem makes_perform {dest : String} (h : makes? t = some dest) : s.Makes dest (s.perform t) := by
  unfold perform
  cases t with
  | new name =>
    cases h
    exact makes_keepTelling (.refl s) dest Config.default
  | copy on name =>
    cases h
    dsimp only [copy]
    split
    . exact .fails (.refl s)
    . exact makes_keepTelling (.refl s) dest _
  | parse name document =>
    cases h
    dsimp only [parse]
    split
    . exact .fails (.refl s)
    . exact .fails (.refl s)
    . exact makes_keepTelling (.refl s) dest _
  | environment name env leader =>
    cases h
    apply makes_environment
  | processEnvironment name env leader =>
    cases h
    dsimp only [processEnvironment]
    split
    . exact .fails (.refl s)
    . apply makes_environment
  | load path name =>
    cases h
    dsimp only [load]
    split
    . exact .fails (s.emit_has _)
    . exact makes_keepTelling (s.emit_has _) dest _
  | snapshot on name =>
    cases h
    dsimp only [snapshot]
    split
    . exact .fails (.refl s)
    . exact makes_keepTelling (.refl s) dest _
  | _ => cases h

theorem Makes.change {dest : String} {out : Outcome} (h : s.Makes dest out)
    (under : dest? t = some dest) : s.Change t out.2 := by
  cases h with
  | fails h => exact .stays h
  | adds h => exact .adds dest _ under h

theorem dest?_of_makes? {dest : String} (h : makes? t = some dest) : dest? t = some dest := by
  cases t <;> cases h <;> rfl

theorem handle_has {path : Option Text} (h : (s.loadFrom (path.map Path.ofText)).1 = .ok c)
    (dest : String) :
    (s.handle dest path).2.Has (s.configs ++ [(c : Aggregate)])
      ((dest, .handle s.handles.length 0) :: s.slots)
      (s.handles ++ [⟨path.map Path.ofText, s.nextNumber⟩]) := by
  simp only [handle, h]
  constructor
  . simp [keep, addConfig]
  . simp [keep, addConfig]
  . simp [keep]

theorem change_handle (s : Session) (dest : String) (path : Option Text) :
    s.Change (.handle dest path) (s.handle dest path).2 := by
  cases hload : (s.loadFrom (path.map Path.ofText)).1 with
  | error e =>
    simp only [handle, hload]
    exact change_emit s _ _
  | ok c => exact .builds dest _ c rfl (.built hload) (handle_has hload dest)

theorem reload_has {on : String} {views : Nat} (hslot : s.slot on = .ok (.handle k views))
    (h : (s.loadFrom (s.handleAt k).source).1 = .ok c) (dest : String) :
    (s.reload on dest).2.Has (s.configs ++ [(c : Aggregate)])
      ((dest, .config s.nextNumber ⟨none, 1⟩) :: s.slots)
      (s.handles.set k { s.handleAt k with active := s.nextNumber }) := by
  simp only [reload, handleOf_of_slot hslot, h]
  constructor
  . simp [tell, keep, addConfig]
  . simp [tell, keep, addConfig]
  . simp [tell, keep, addConfig]

theorem change_reload (s : Session) (on dest : String) :
    s.Change (.reload on dest) (s.reload on dest).2 := by
  cases hof : s.handleOf on "reload" with
  | error e =>
    simp only [reload, hof]
    exact .refl s _
  | ok found =>
    rcases found with ⟨k, h⟩
    rcases slot_of_handleOf hof with ⟨rfl, views, hslot⟩
    cases hload : (s.loadFrom (s.handleAt k).source).1 with
    | error e =>
      simp only [reload, hof, hload]
      -- A reload that fails only logs: what its loading says, and that the handle is kept.
      exact .stays ((s.emit_has _).emit _)
    | ok c =>
      exact .reloads on dest k views c rfl hslot (.reloaded hslot hload)
        (reload_has hslot hload dest)

theorem change_perform (s : Session) (t : Step) : s.Change t (s.perform t).2 := by
  by_cases hpassive : isPassive t = true
  . exact .stays (perform_has hpassive)
  . cases hmakes : makes? t with
    | some dest => exact (makes_perform hmakes).change (dest?_of_makes? hmakes)
    | none =>
      unfold perform
      cases t with
      | assign on names name v => apply change_assign
      | appendPeer on v => apply change_appendPeer
      | overlay on document => apply change_overlay
      | setKey on name v => apply change_setKey
      | put on names name v => apply change_put
      | delete on names name => apply change_delete
      | view on dest => apply change_view
      | sect on name dest => apply change_sect
      | handle dest path => apply change_handle
      | handleView on dest => apply change_handleView
      | reload on dest => apply change_reload
      | _ => first | exact absurd rfl hpassive | cases hmakes

theorem makes_of_fresh {dest : String} {out : Outcome} (h : s.fresh.Makes dest out) :
    s.Makes dest out := by
  cases h with
  | fails h => exact .fails h
  | adds h => exact .adds h

theorem makes_step {dest : String} (h : makes? t = some dest) : s.Makes dest (s.step t) :=
  makes_of_fresh (makes_perform h)

theorem delivers_of_fresh {a : Aggregate} (h : s.fresh.Delivers t k a) : s.Delivers t k a := by
  cases h with
  | built h =>
    rw [loadFrom_fresh] at h
    exact .built h
  | reloaded hslot h =>
    rw [loadFrom_fresh] at h
    exact .reloaded hslot h

@[simp]
theorem follow_fresh (s : Session) (slot : Slot) (names : List String) :
    s.fresh.follow slot names = s.follow slot names := by
  induction names generalizing slot with
  | nil => rfl
  | cons name names ih =>
    simp only [Session.follow]
    have hmember : s.fresh.member slot name = s.member slot name := rfl
    rw [hmember]
    cases s.member slot name with
    | error e => rfl
    | ok inner => exact ih inner

theorem slot_fresh (s : Session) (name : String) : s.fresh.slot name = s.slot name := rfl

theorem reached_fresh (s : Session) (on : String) (names : List String) :
    s.fresh.reached on names = s.reached on names := by
  simp [reached, slot_fresh]

theorem writesTo_of_fresh (h : s.fresh.WritesTo t n) : s.WritesTo t n := by
  rcases h with ⟨on, names, reach, hplace, hreached, hview⟩
  rw [reached_fresh] at hreached
  exact ⟨on, names, reach, hplace, hreached, hview⟩

theorem shares_of_fresh (h : s.fresh.Shares t slot) : s.Shares t slot := by
  cases h with
  | view h => exact .view h
  | sect h =>
    rw [reached_fresh] at h
    exact .sect h
  | active h => exact .active h

theorem change_step (s : Session) (t : Step) : s.Change t (s.step t).2 := by
  -- Fresh records and a fresh console are no part of what a change is about.
  cases change_perform s.fresh t with
  | stays h => exact .stays h
  | keeps name slot under shares h => exact .keeps name slot under (shares_of_fresh shares) h
  | adds name c under h => exact .adds name c under h
  | writes n c target h => exact .writes n c (writesTo_of_fresh target) h
  | builds name source c under delivers h =>
    exact .builds name source c under (delivers_of_fresh delivers) h
  | reloads on name k views c under kept delivers h =>
    exact .reloads on name k views c under kept (delivers_of_fresh delivers) h

end Session
end NodeSettings
