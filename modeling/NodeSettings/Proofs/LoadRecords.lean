import Mathlib.Data.List.Forall2
import NodeSettings.Proofs.Document
import NodeSettings.Proofs.Load
import NodeSettings.Proofs.OverlayOrder

/-!
This module contains what the loading of a configuration comes to if the file is a document: the
same as the reading of the document by itself, with records of what was met on the way.
-/

namespace NodeSettings

def DocumentFault.failure : DocumentFault → Failure
  | .overlay fault => .overlay fault
  | .validation fault => .validation fault

namespace ConfigFile

structure Tells (r : Log.Record) (level : Nat) (payload : List (String × Value)) : Prop where
  level : r.level = level
  payload : r.extra? "payload" = some (.map (payload.map fun (k, v) => (.text k, v)))

def sectionValue (v : Violation) : Value :=
  match v.sect with
  | none => .null
  | some x => .text x.name

section

variable {fs : FileSystem} {p : Path} {bytes : ByteArray} {document : Value}

theorem tells_ignoredRecord (path : Text) :
    Tells (ignoredRecord p path) Log.debugLevel [("key", .text path)] :=
  ⟨rfl, rfl⟩

theorem tells_invalidRecord (v : Violation) :
    Tells (invalidRecord p v) Log.errorLevel
      [("section", sectionValue v), ("rule", .text v.rule)] :=
  ⟨rfl, rfl⟩

theorem tells_loadedRecord (c : Config) :
    Tells (loadedRecord p c) Log.infoLevel [("environment", c.get .environment)] :=
  ⟨rfl, rfl⟩

theorem tells_ignored (paths : List Text) :
    List.Forall₂ (fun path r => Tells r Log.debugLevel [("key", .text path)]) paths
      (paths.map (ignoredRecord p)) := by
  rw [List.forall₂_map_right_iff]
  apply List.forall₂_same.mpr
  intro path _
  apply tells_ignoredRecord

theorem load_of_read (hread : fs.read p = .ok bytes)
    (hdocument : Yaml.read bytes = .ok document) : load fs p = ofDocument p document := by
  have hparse : readDocument fs p = .ok document := by
    unfold readDocument parse
    rw [hread]
    dsimp only
    rw [hdocument]
    rfl
  unfold load
  rw [hparse]

theorem ofDocument_fst_eq (p : Path) (document : Value) :
    (ofDocument p document).1 = (Config.ofDocument document).mapError DocumentFault.failure := by
  rw [ofDocument_fst]
  split
  . next h => rw [h]; rfl
  . next h => rw [h]; rfl
  . next h => rw [h]; rfl

theorem ofDocument_snd_of_fault {fault : OverlayFault}
    (h : (Config.default.overlay document).fault = some fault) :
    (ofDocument p document).2 = [] := by
  unfold ofDocument
  dsimp only
  rw [h]

/-- A document that is laid over the defaults is told of key by key, and then as a whole. -/
theorem ofDocument_snd (h : (Config.default.overlay document).fault = none) :
    ∃ last, (ofDocument p document).2 =
        (Overlay.strayPaths document).map (ignoredRecord p) ++ [last]
      ∧ ((∃ c, Config.ofDocument document = .ok c ∧ last = loadedRecord p c)
        ∨ ∃ v, Config.ofDocument document = .error (.validation (.violation v))
          ∧ last = invalidRecord p v) := by
  unfold ofDocument
  dsimp only
  rw [h, Overlay.overlay_ignored h]
  dsimp only
  rcases Config.ofDocument_cases document with ⟨f, hfault, -⟩ | ⟨-, hvalid, hresult⟩
    | ⟨-, v, hinvalid, hresult⟩
  . rw [h] at hfault
    cases hfault
  . rw [hvalid]
    exact ⟨_, rfl, .inl ⟨_, hresult, rfl⟩⟩
  . rw [hinvalid]
    exact ⟨_, rfl, .inr ⟨v, hresult, rfl⟩⟩

/--
The loading of a file that is a document has the result of the reading of the document. Nothing is
logged if the overlay fails. If not, there is a record of every key that names nothing, in the order
of reading, and then one of the configuration, or else of what it violates.
-/
theorem load_follows_ofDocument (hread : fs.read p = .ok bytes)
    (hdocument : Yaml.read bytes = .ok document) :
    (load fs p).1 = (Config.ofDocument document).mapError DocumentFault.failure
      ∧ (∀ fault, (Config.default.overlay document).fault = some fault → (load fs p).2 = [])
      ∧ ((Config.default.overlay document).fault = none →
        ∃ ignored last, (load fs p).2 = ignored ++ [last]
          ∧ List.Forall₂ (fun path r => Tells r Log.debugLevel [("key", .text path)])
            (Overlay.strayPaths document) ignored
          ∧ ((∃ c, Config.ofDocument document = .ok c
              ∧ Tells last Log.infoLevel [("environment", c.get .environment)])
            ∨ ∃ v, Config.ofDocument document = .error (.validation (.violation v))
              ∧ Tells last Log.errorLevel
                [("section", sectionValue v), ("rule", .text v.rule)])) := by
  rw [load_of_read hread hdocument]
  refine ⟨ofDocument_fst_eq p document, ?_, ?_⟩
  . intro fault h
    exact ofDocument_snd_of_fault h
  . intro h
    rcases ofDocument_snd (p := p) h with ⟨last, hrecords, hlast⟩
    refine ⟨_, last, hrecords, tells_ignored _, ?_⟩
    rcases hlast with ⟨c, hc, rfl⟩ | ⟨v, hv, rfl⟩
    . exact .inl ⟨c, hc, tells_loadedRecord c⟩
    . exact .inr ⟨v, hv, tells_invalidRecord v⟩

end

def crowdedText : ByteArray :=
  "depth: 1\nnetwork:\n  colour: 2\n  max_peers: 5000\n".toUTF8

def crowdedDocument : Value :=
  .map [(.text "depth", .integer 1),
    (.text "network", .map [(.text "colour", .integer 2), (.text "max_peers", .integer 5000)])]

theorem read_crowdedText : Yaml.read crowdedText = .ok crowdedDocument := by
  have hinner : Yaml.IsWritable 1 (.map [(.text "colour", .integer 2),
      (.text "max_peers", .integer 5000)]) := by
    refine @Yaml.isWritable_record 0
      [("colour".toList, .integer 2), ("max_peers".toList, .integer 5000)] ?_ ?_ ?_ ?_
    . simp
    . decide
    . rw [List.forall_mem_cons, List.forall_mem_singleton]
      exact ⟨by decide +kernel, Setting.isKey_name .maxPeers⟩
    . simp [Yaml.isWritable_integer]
  have houter : Yaml.IsWritable 2 crowdedDocument := by
    refine @Yaml.isWritable_record 1 [("depth".toList, .integer 1), ("network".toList, _)]
      ?_ ?_ ?_ ?_
    . simp
    . decide
    . rw [List.forall_mem_cons, List.forall_mem_singleton]
      exact ⟨by decide +kernel, Section.isKey_name .network⟩
    . rw [List.forall_mem_cons, List.forall_mem_singleton]
      exact ⟨Yaml.isWritable_integer _ _, hinner⟩
  exact Yaml.read_write houter (by decide) (by decide +kernel)

theorem load_follows_ofDocument_crowded :
    (treeWith "config.yml" crowdedText).read ⟨.here, ["config.yml"]⟩ = .ok crowdedText
      ∧ (load (treeWith "config.yml" crowdedText) ⟨.here, ["config.yml"]⟩).1 =
        .error (.validation (.violation ⟨some .network, "max_peers too high (max 1000)"⟩))
      ∧ ∃ first second last,
        (load (treeWith "config.yml" crowdedText) ⟨.here, ["config.yml"]⟩).2 = [first, second, last]
          ∧ Tells first Log.debugLevel [("key", .text "depth")]
          ∧ Tells second Log.debugLevel [("key", .text "network.colour")]
          ∧ Tells last Log.errorLevel [("section", .text "network"),
            ("rule", .text "max_peers too high (max 1000)")] := by
  have hread : (treeWith "config.yml" crowdedText).read ⟨.here, ["config.yml"]⟩ = .ok crowdedText :=
    rfl
  have hstray : Overlay.strayPaths crowdedDocument =
      [("depth" : Text), ("network.colour" : Text)] :=
    rfl
  have hresult : Config.ofDocument crowdedDocument =
      .error (.validation (.violation ⟨some .network, "max_peers too high (max 1000)"⟩)) := rfl
  rcases load_follows_ofDocument hread read_crowdedText with ⟨hload, -, hrecords⟩
  rcases hrecords rfl with ⟨ignored, last, hall, hignored, hlast⟩
  rw [hresult] at hload hlast
  refine ⟨hread, hload, ?_⟩
  rw [hstray] at hignored
  cases hignored with
  | cons hfirst hrest =>
    cases hrest with
    | cons hsecond hnil =>
      cases hnil
      rcases hlast with ⟨c, hc, -⟩ | ⟨v, hv, hlast⟩
      . cases hc
      . cases hv
        exact ⟨_, _, last, hall, hfirst, hsecond, hlast⟩

end ConfigFile
end NodeSettings
