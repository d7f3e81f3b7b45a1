import NodeSettings.Config.File
import NodeSettings.Proofs.FileSystem
import NodeSettings.Proofs.OverlayFault

/-!
This module contains the kinds of the failures that the loading of a configuration ends with.
-/

namespace NodeSettings
namespace ConfigFile

/-- The kinds of failures that the operations on configuration files have for themselves. -/
def errorKinds : List String :=
  ["ConfigIOError", "ConfigParseError", "ConfigValidationError"]

theorem kind_unreadable_mem (p : Path) (fault : FileFault) :
    (Failure.unreadable p fault).kind ∈ errorKinds := by
  simp [Failure.kind, errorKinds]

theorem kind_unparsable_mem (p : Path) : (Failure.unparsable p).kind ∈ errorKinds := by
  simp [Failure.kind, errorKinds]

theorem kind_violation_mem (v : Violation) :
    (Failure.validation (.violation v)).kind ∈ errorKinds := by
  simp [Failure.kind, errorKinds]

theorem kind_badScalar_not_mem {fault : Yaml.Fault} (h : fault ≠ .malformed) :
    (Failure.badScalar fault).kind ∉ errorKinds := by
  cases fault <;> simp_all [Failure.kind, Failure.scalarKind, errorKinds]

theorem kind_overlay_mem_iff (f : OverlayFault) :
    (Failure.overlay f).kind ∈ errorKinds ↔ ∀ e, f ≠ .unnameable e := by
  cases f with
  | notAMapping => simp [Failure.kind, errorKinds]
  | mistyped path expected => simp [Failure.kind, errorKinds]
  | unnameable fault =>
    constructor
    . simp [Failure.kind, errorKinds]
    . intro h
      exact absurd rfl (h fault)

theorem parse_of_fault {p : Path} {bytes : ByteArray} {fault : Yaml.Fault}
    (h : Yaml.read bytes = .error fault) :
    parse p bytes = .error (if fault = .malformed then .unparsable p else .badScalar fault) := by
  unfold parse
  rw [h]
  cases fault <;> rfl

theorem ofDocument_fst (p : Path) (document : Value) :
    (ofDocument p document).1 =
      match Config.ofDocument document with
      | .ok c => .ok c
      | .error (.overlay fault) => .error (.overlay fault)
      | .error (.validation fault) => .error (.validation fault) := by
  unfold ofDocument Config.ofDocument
  dsimp only
  cases (Config.default.overlay document).fault with
  | some fault => rfl
  | none =>
    cases (Config.default.overlay document).config.validate with
    | ok u => rfl
    | error fault => cases fault <;> rfl

theorem load_fst (fs : FileSystem) (p : Path) :
    (load fs p).1 = (readDocument fs p).bind fun document => (ofDocument p document).1 := by
  unfold load
  cases readDocument fs p <;> rfl

theorem kind_refused_not_mem (p : Path) (fault : PathFault) :
    (Failure.file p.text (.refused fault)).kind ∉ errorKinds := by
  cases fault <;> simp [Failure.kind, FileFault.kind, PathFault.kind, errorKinds]

/--
The loading of a configuration from a path fails with a kind of failure of its own, unless no file
can be looked for by the path, or the file has a scalar or a directive that is at fault in another
way than by its form, or a key that cannot be written and that is met before anything of the wrong
shape.
-/
theorem load_leaves_errorKinds_iff {fs : FileSystem} {p : Path} :
    (∃ e, (load fs p).1 = .error e ∧ e.kind ∉ errorKinds) ↔
      (∃ fault, p.fault? = some fault)
        ∨ ∃ bytes, fs.read p = .ok bytes
          ∧ ((∃ fault, Yaml.read bytes = .error fault ∧ fault ≠ .malformed)
            ∨ ∃ document, Yaml.read bytes = .ok document ∧ Overlay.MeetsUnwritable document) := by
  rw [load_fst, readDocument]
  simp only [← @FileSystem.read_eq_refused_iff fs]
  cases hread : fs.read p with
  | error fault =>
    -- The file cannot be read.
    cases fault with
    | refused fault => simp [Except.bind, kind_refused_not_mem]
    | _ => simp [Except.bind, kind_unreadable_mem]
  | ok bytes =>
    simp only [reduceCtorEq, exists_false, false_or, Except.ok.injEq, exists_eq_left']
    cases hyaml : Yaml.read bytes with
    | error fault =>
      -- The text of the file is no document.
      rw [parse_of_fault hyaml]
      by_cases hform : fault = .malformed
      . simp [Except.bind, hform, kind_unparsable_mem]
      . simp [Except.bind, hform, kind_badScalar_not_mem]
    | ok document =>
      -- From here on only the overlay can fail with a failure of another kind.
      have hparse : parse p bytes = .ok document := by
        unfold parse
        rw [hyaml]
        rfl
      rw [hparse]
      simp only [Except.bind, ofDocument_fst, reduceCtorEq, false_and, exists_false, false_or,
        Except.ok.injEq, exists_eq_left']
      rw [← Overlay.overlay_unnameable_iff (c := .default)]
      rcases Config.ofDocument_cases document with ⟨f, hfault, hresult⟩ | ⟨hfault, -, hresult⟩
        | ⟨hfault, v, -, hresult⟩
      . rw [hresult, hfault]
        simp only [Except.error.injEq, exists_eq_left', kind_overlay_mem_iff, Option.some.injEq,
          Classical.not_forall, Classical.not_not]
      . rw [hresult, hfault]
        simp
      . rw [hresult, hfault]
        simp [kind_violation_mem]

def treeWith (name : String) (content : ByteArray) : FileSystem :=
  FileSystem.empty.put (Text.octets name :: FileSystem.work) (.file content)

theorem load_leaves_errorKinds_thirteenthMonth :
    (⟨.here, ["config.yml"]⟩ : Path).hasNul = false
      ∧ ∃ e, (load (treeWith "config.yml" "since: 2001-13-01\n".toUTF8)
        ⟨.here, ["config.yml"]⟩).1 = .error e ∧ e.kind ∉ errorKinds := by
  have hp : (⟨.here, ["config.yml"]⟩ : Path).hasNul = false := by decide
  have hmonth : Yaml.read "since: 2001-13-01\n".toUTF8 = .error .badMonth := by
    have h : (match Yaml.read "since: 2001-13-01\n".toUTF8 with
        | .error .badMonth => true
        | _ => false) = true := by
      decide +kernel
    split at h
    . assumption
    . cases h
  exact ⟨hp, load_leaves_errorKinds_iff.mpr (.inr ⟨_, rfl, .inl ⟨.badMonth, hmonth, by simp⟩⟩)⟩

end ConfigFile
end NodeSettings
