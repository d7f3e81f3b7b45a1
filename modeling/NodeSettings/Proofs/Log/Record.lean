import NodeSettings.Proofs.Log.Line
import NodeSettings.Proofs.Log.RoundTrip

/-!
This module contains that a record is written as one line of JSON, which is read as what the record
has in it without anything empty.
-/

namespace NodeSettings

namespace Text

open CodePoint

variable {t : Text} {points : List CodePoint} {p : CodePoint}

theorem isChain_map_char_append (cs : List Char) (h : points.IsChain fun p q => pair? p q = none) :
    (cs.map CodePoint.char ++ points).IsChain fun p q => pair? p q = none := by
  induction cs with
  | nil => exact h
  | cons c cs ih => exact List.isChain_cons.mpr ⟨fun _ _ => rfl, ih⟩

theorem IsWhole.behind (s : String) (h : t.IsWhole) : ((s : Text) ++ t).IsWhole :=
  isChain_map_char_append s.toList h

theorem isWhole_ofString (s : String) : (s : Text).IsWhole := by
  have h := isChain_map_char_append s.toList .nil
  rwa [List.append_nil] at h

theorem lowerFrom_surrogate (seen points : List CodePoint) (n : Fin 0x800) :
    lowerFrom seen (.surrogate n :: points) =
      .surrogate n :: lowerFrom (.surrogate n :: seen) points := by
  rw [lowerFrom]
  rfl

theorem lowerFrom_char (seen points : List CodePoint) (c : Char) :
    ∃ d ds, lowerFrom seen (.char c :: points) =
      (d :: ds).map CodePoint.char ++ lowerFrom (.char c :: seen) points := by
  by_cases hsigma : c = 'Σ'
  . rw [hsigma, lowerFrom]
    exact ⟨_, [], rfl⟩
  . by_cases hdotted : c = 'İ'
    . rw [hdotted, lowerFrom]
      exact ⟨_, ['\u0307'], rfl⟩
    . rw [lowerFrom]
      . exact ⟨_, [], rfl⟩
      . exact hsigma
      . exact hdotted

theorem pair?_head_lowerFrom (h : ∀ q ∈ points.head?, pair? p q = none) (seen : List CodePoint) :
    ∀ q ∈ (lowerFrom seen points).head?, pair? p q = none := by
  cases p with
  | char c => exact fun _ _ => rfl
  | surrogate n =>
    cases points with
    | nil => exact h
    | cons q points =>
      cases q with
      | surrogate m =>
        rw [lowerFrom_surrogate]
        exact h
      | char c =>
        rcases lowerFrom_char seen points c with ⟨d, ds, hlower⟩
        rw [hlower]
        intro q hq
        cases hq
        rfl

theorem isChain_lowerFrom (h : points.IsChain fun p q => pair? p q = none)
    (seen : List CodePoint) :
    (lowerFrom seen points).IsChain fun p q => pair? p q = none := by
  induction points generalizing seen with
  | nil => exact .nil
  | cons p points ih =>
    rw [List.isChain_cons] at h
    cases p with
    | surrogate n =>
      rw [lowerFrom_surrogate, List.isChain_cons]
      exact ⟨pair?_head_lowerFrom h.1 _, ih h.2 _⟩
    | char c =>
      rcases lowerFrom_char seen points c with ⟨d, ds, hlower⟩
      rw [hlower]
      exact isChain_map_char_append (d :: ds) (ih h.2 _)

theorem IsWhole.lower (h : t.IsWhole) : t.lower.IsWhole :=
  isChain_lowerFrom h []

end Text

namespace Log

open Value (IsMadeOf IsLoggable IsLoggableKey IsPortable IsPortableKey)

variable {r : Record} {service message level : Text} {stamp line : String} {error : Option Text}
  {fields : List (Value × Value)} {leaf key : Value → Prop}

def group (name : String) (members : List (String × Value)) : Value × Value :=
  (.text name, .map (members.map fun (k, v) => (.text k, v)))

def Record.known (r : Record) (name : String) (usual : Value) : Value :=
  (r.extra? name).getD usual

def Record.fieldsOf (r : Record) (stamp : String) (service message level : Text)
    (error : Option Text) : List (Value × Value) :=
  [(.text "@timestamp", .text stamp),
    (.text "message", .text message),
    group "log" [("level", .text level), ("logger", r.known "name" (.text r.logger))],
    group "service" [("name", r.known "service_name" (.text service))],
    group "event" [("kind", .text "event"),
      ("category", r.known "event_category" (.text "configuration")),
      ("action", r.known "event_action" .null), ("outcome", r.known "event_outcome" .null)],
    group "file" [("path", r.known "file_path" .null)],
    group "betanet" [("payload", r.known "payload" .null)]]
  ++ error.toList.map fun text => group "error" [("message", .text text)]

theorem Record.fields_eq (r : Record) (stamp : String) (service : Text) :
    r.fields stamp service = (do
      let message ← r.message
      let level ← r.levelLabel
      let error ← r.errorText?
      return r.fieldsOf stamp service message level error) := by
  unfold Record.fields
  cases r.message with
  | error fault => rfl
  | ok message =>
    cases r.levelLabel with
    | error fault => rfl
    | ok level =>
      cases r.errorText? with
      | error fault => rfl
      | ok error =>
        cases error with
        | none => rfl
        | some text => rfl

def shownNames : List String :=
  ["name", "service_name", "event_category", "event_action", "event_outcome", "file_path",
    "payload"]

/-- The texts and values that a record holds for its line are made of leaves and keys of kinds. -/
structure Record.Holds (r : Record) (service : Text) (leaf key : Value → Prop) : Prop where
  logger : leaf (.text r.logger)
  service : leaf (.text service)
  message : ∀ t, r.message = .ok t → leaf (.text t)
  level : ∀ t, r.extra? "levelname" = some (.text t) → leaf (.text t)
  error : ∀ e, r.error = some e → leaf (.text e.text)
  known : ∀ name ∈ shownNames, ∀ v, r.extra? name = some v → v.IsMadeOf leaf key

/-- Null, all strings and what is made of texts of the kind are of the kind; strings can be keys. -/
structure AdmitsStrings (leaf key : Value → Prop) : Prop where
  null : leaf .null
  string : ∀ s : String, leaf (.text s)
  name : ∀ s : String, key (.text s)
  lower : ∀ t : Text, leaf (.text t) → leaf (.text t.lower)
  behind : ∀ (s : String) (t : Text), leaf (.text t) → leaf (.text (s ++ t))

theorem admitsStrings_loggable : AdmitsStrings IsLoggable IsLoggableKey where
  null := trivial
  string _ := trivial
  name _ := trivial
  lower _ _ := trivial
  behind _ _ _ := trivial

theorem admitsStrings_portable : AdmitsStrings IsPortable IsPortableKey where
  null := trivial
  string := Text.isWhole_ofString
  name := Text.isWhole_ofString
  lower _ h := h.lower
  behind s _ h := h.behind s

theorem Record.Holds.levelLabel (h : r.Holds service leaf key) (hstrings : AdmitsStrings leaf key)
    (hlevel : r.levelLabel = .ok level) : leaf (.text level) := by
  unfold Record.levelLabel at hlevel
  split at hlevel
  . cases hlevel
    exact hstrings.lower _ (hstrings.string _)
  . next t ht =>
    cases hlevel
    exact hstrings.lower t (h.level t ht)
  . cases hlevel

theorem Record.Holds.errorText? (h : r.Holds service leaf key) (hstrings : AdmitsStrings leaf key)
    (herror : r.errorText? = .ok error) : ∀ t ∈ error, leaf (.text t) := by
  unfold Record.errorText? at herror
  split at herror
  . cases herror
    intro t ht
    rcases Option.map_eq_some_iff.mp ht with ⟨e, he, rfl⟩
    unfold ErrorNote.message
    split
    . exact hstrings.string _
    . exact hstrings.behind _ _ (h.error e he)
  . split at herror
    . cases herror
    . cases herror
      nofun

theorem Record.Holds.isMadeOf_fields (h : r.Holds service leaf key)
    (hstrings : AdmitsStrings leaf key) (hfields : r.fields stamp service = .ok fields) :
    (Value.map fields).IsMadeOf leaf key := by
  simp only [Record.fields_eq, Except.bind_eq_ok_iff] at hfields
  rcases hfields with ⟨message, hmessage, level, hlevel, error, herror, hfields⟩
  have htext {t : Text} (ht : leaf (.text t)) : (Value.text t).IsMadeOf leaf key :=
    (Value.isMadeOf_iff_of_isLeaf rfl).mpr ht
  have hnull : Value.null.IsMadeOf leaf key := (Value.isMadeOf_iff_of_isLeaf rfl).mpr hstrings.null
  have hknown (name : String) (hname : name ∈ shownNames) {usual : Value}
      (husual : usual.IsMadeOf leaf key) : (r.known name usual).IsMadeOf leaf key := by
    unfold Record.known
    cases hextra : r.extra? name with
    | none => exact husual
    | some v => exact h.known name hname v hextra
  have hgroup (name : String) (members : List (String × Value))
      (hmembers : ∀ m ∈ members, m.2.IsMadeOf leaf key) :
      key (group name members).1 ∧ (group name members).2.IsMadeOf leaf key := by
    refine ⟨hstrings.name name, Value.isMadeOf_map_iff.mpr ?_⟩
    rw [List.forall_mem_map]
    exact fun m hm => ⟨hstrings.name m.1, hmembers m hm⟩
  have hlevel := htext (h.levelLabel hstrings hlevel)
  have herror := h.errorText? hstrings herror
  cases hfields
  rw [Value.isMadeOf_map_iff, fieldsOf]
  simp only [List.forall_mem_append, List.forall_mem_cons, List.forall_mem_map]
  refine ⟨⟨⟨hstrings.name _, htext (hstrings.string _)⟩,
    ⟨hstrings.name _, htext (h.message _ hmessage)⟩, hgroup _ _ ?_, hgroup _ _ ?_, hgroup _ _ ?_,
    hgroup _ _ ?_, hgroup _ _ ?_, nofun⟩, fun t ht => hgroup _ _ ?_⟩
  . simp only [List.forall_mem_cons]
    exact ⟨hlevel, hknown _ (by decide) (htext h.logger), nofun⟩
  . simp only [List.forall_mem_cons]
    exact ⟨hknown _ (by decide) (htext h.service), nofun⟩
  . simp only [List.forall_mem_cons]
    exact ⟨htext (hstrings.string _), hknown _ (by decide) (htext (hstrings.string _)),
      hknown _ (by decide) hnull, hknown _ (by decide) hnull, nofun⟩
  . simp only [List.forall_mem_cons]
    exact ⟨hknown _ (by decide) hnull, nofun⟩
  . simp only [List.forall_mem_cons]
    exact ⟨hknown _ (by decide) hnull, nofun⟩
  . simp only [List.forall_mem_cons]
    exact ⟨htext (herror t (Option.mem_toList.mp ht)), nofun⟩

theorem Record.exists_prune?_fields (h : r.fields stamp service = .ok fields) :
    ∃ tree, (Value.map fields).prune? = some tree := by
  simp only [Record.fields_eq, Except.bind_eq_ok_iff] at h
  rcases h with ⟨message, -, level, -, error, -, h⟩
  cases h
  rw [← Option.ne_none_iff_exists', Ne, Value.prune?_eq_none_iff]
  intro hhollow
  have hleaf : Value.text "event"
      ∈ (Value.map (r.fieldsOf stamp service message level error)).leaves := by
    rw [Value.leaves_map, List.mem_flatMap]
    refine ⟨_, List.mem_append_left _ (.tail _ (.tail _ (.tail _ (.tail _ (.head _))))), ?_⟩
    rw [group, Value.leaves_map]
    exact List.mem_append_left _ (.head _)
  cases hhollow _ hleaf

theorem Record.line_eq {tree : Value} (hfields : r.fields stamp service = .ok fields)
    (htree : (Value.map fields).prune? = some tree) :
    r.line stamp service = (do return String.ofList (← (Json.encode tree).mapError .encoding)) := by
  rw [Record.line, hfields, Except.ok_bind, htree, Option.getD_some]

/-- What stands under the names of the level and of the error is of the type that belongs there. -/
structure Record.IsProper (r : Record) : Prop where
  level : ∀ v, r.extra? "levelname" = some v → ∃ t, v = .text t
  error : ∀ v, r.extra? "exc_info" = some v → v.isTruthy = false

theorem Record.IsProper.exists_fields (h : r.IsProper) (hmessage : r.message = .ok message) :
    ∃ fields, r.fields stamp service = .ok fields := by
  have hlevel : ∃ level, r.levelLabel = .ok level := by
    unfold Record.levelLabel
    split
    . exact ⟨_, rfl⟩
    . exact ⟨_, rfl⟩
    . next v htext hv =>
      rcases h.level v hv with ⟨t, rfl⟩
      exact absurd rfl (htext t)
  have herror : ∃ error, r.errorText? = .ok error := by
    unfold Record.errorText?
    split
    . exact ⟨_, rfl⟩
    . next v hv =>
      rw [h.error v hv]
      exact ⟨_, rfl⟩
  rcases hlevel with ⟨level, hlevel⟩
  rcases herror with ⟨error, herror⟩
  rw [Record.fields_eq, hmessage, hlevel, herror]
  exact ⟨_, rfl⟩

theorem Record.exists_line (h : r.Holds service IsLoggable IsLoggableKey) (hproper : r.IsProper)
    (hmessage : r.message = .ok message) (stamp : String) :
    ∃ line, r.line stamp service = .ok line := by
  have hfields : ∃ fields, r.fields stamp service = .ok fields := hproper.exists_fields hmessage
  rcases hfields with ⟨fields, hfields⟩
  rcases Record.exists_prune?_fields hfields with ⟨tree, htree⟩
  have hkind := (h.isMadeOf_fields admitsStrings_loggable hfields).of_prune? htree
  rcases Json.exists_encode hkind with ⟨cs, hcs⟩
  rw [Record.line_eq hfields htree, hcs]
  exact ⟨_, rfl⟩

theorem Record.decode_line (h : r.Holds service IsPortable IsPortableKey)
    (hline : r.line stamp service = .ok line) :
    ∃ fields tree, r.fields stamp service = .ok fields ∧ (Value.map fields).prune? = some tree
      ∧ Json.decode line = some tree := by
  have hfields := hline
  rw [Record.line, Except.bind_eq_ok_iff] at hfields
  rcases hfields with ⟨fields, hfields, -⟩
  rcases Record.exists_prune?_fields hfields with ⟨tree, htree⟩
  have hkind := (h.isMadeOf_fields admitsStrings_portable hfields).of_prune? htree
  rw [Record.line_eq hfields htree, Except.bind_eq_ok_iff] at hline
  rcases hline with ⟨cs, hcs, hline⟩
  rw [Except.mapError_eq_ok_iff] at hcs
  cases hline
  exact ⟨fields, tree, hfields, htree, Json.decode_encode hkind hcs⟩

/-- A record that has the text of a line of its own in its message, and line ends in its values. -/
def forged : Record where
  logger := "betanet.config"
  level := 20
  template := "loaded %s\n\x7b\"level\":\"error\"\x7d"
  arguments := [.text "a\"b"]
  extras := [("payload", .map [(.text "none", .list [.null, .text ""]),
    (.text "rows", .list [.text "\r\n\u2028\\", .integer (-7), .boolean false]),
    (.text "😀", .text ⟨[.surrogate ⟨0x3D, by decide⟩, .char 'é']⟩)])]
  error := some (.ofText "ValueError" "\x85")

end Log
end NodeSettings
