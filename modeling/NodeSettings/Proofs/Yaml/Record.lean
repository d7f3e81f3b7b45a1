import NodeSettings.Proofs.Yaml.Scalar
import NodeSettings.Yaml.Build

/-!
This module contains the trees that are read back as the values they are written for: scalars, lists
of scalars, and records of which the keys are words.
-/

namespace NodeSettings
namespace Yaml

variable {tag : Tag} {text : Text} {w : List Char} {indent column : Nat}

structure Entry where
  key : List Char
  tree : Tree
  value : Value

namespace Entry

def node (e : Entry) : Tree × Tree :=
  (.scalar .str (.ofChars e.key), e.tree)

def pair (e : Entry) : Value × Value :=
  (.text (.ofChars e.key), e.value)

end Entry

/-- A tree of at most some depth is read back as a value. -/
inductive Denotes : Nat → Tree → Value → Prop where
  | scalar (d : Nat) {tag : Tag} {text : Text} {v : Value} (hreadable : IsReadable tag text)
    (hvalue : ∀ mark, scalarValue tag mark text = .ok v) : Denotes d (.scalar tag text) v
  | list (d : Nat) (items : List (Tree × Value)) (hitems : ∀ i ∈ items, Denotes 0 i.1 i.2) :
    Denotes (d + 1) (.sequence (items.map (·.1))) (.list (items.map (·.2)))
  | record (d : Nat) (entries : List Entry) (hne : entries ≠ [])
    (hkeys : (entries.map (·.key)).Nodup) (hkey : ∀ e ∈ entries, IsKey e.key)
    (hentries : ∀ e ∈ entries, Denotes d e.tree e.value) :
    Denotes (d + 1) (.mapping (entries.map Entry.node)) (.map (entries.map Entry.pair))

theorem choose_key (hw : IsKey w) : Tag.ofPlain w = .str ∧ Style.allowsPlain w = true := by
  have hplain := hw.plain
  unfold Style.choose at hplain
  dsimp only at hplain
  split at hplain
  . next h =>
    simp only [Bool.and_eq_true, decide_eq_true_eq] at h
    exact ⟨h.1.1, h.2⟩
  . split at hplain <;> cases hplain

theorem isPlain_key (hw : IsKey w) : isPlain .str (.ofChars w) = true := by
  unfold isPlain
  rw [Text.chars?_ofChars]
  dsimp only
  rw [decide_eq_true_eq, choose_eq_plain_iff]
  exact choose_key hw

theorem simpleKey_key (hw : IsKey w) : Layout.simpleKey (.scalar .str (.ofChars w)) = w := by
  have hwrite := Style.writePlain_word false 0 0 hw.isWord.no_space []
  rw [List.append_nil] at hwrite
  unfold Layout.simpleKey Style.write
  dsimp only
  rw [Text.chars?_ofChars]
  dsimp only
  rw [hw.plain]
  show Style.writePlain false 0 0 0 w = w
  rw [hwrite]
  exact List.append_nil w

theorem isSimpleKey_key (hw : IsKey w) :
    Layout.isSimpleKey (.scalar .str (.ofChars w)) = true := by
  -- Five characters more are counted for the tag, which leaves room for keys of 100.
  have hshort := hw.short
  have hne := hw.isWord.ne_nil
  have hbreak : Style.isMultiline w = false := by
    have hallows := (choose_key hw).2
    unfold Style.allowsPlain at hallows
    simp only [Bool.not_eq_true', Bool.or_eq_false_iff] at hallows
    exact hallows.1.1.1.1.1.2
  unfold Layout.isSimpleKey
  dsimp only
  rw [Text.chars_ofChars, hbreak]
  rw [Bool.not_false, Bool.and_true, Bool.and_eq_true, decide_eq_true_eq]
  constructor
  . show 5 + w.length < 128
    omega
  . simpa using hne

def entryLine (indent : Nat) (e : Entry) : List Char :=
  e.key ++ ':' :: Layout.write .newLine indent (indent + e.key.length + 1) e.tree

theorem writeEntries_map (indent : Nat) {entries : List Entry}
    (h : ∀ e ∈ entries, IsKey e.key) :
    Layout.writeEntries indent (entries.map Entry.node) = entries.map (entryLine indent) := by
  induction entries with
  | nil => simp [Layout.writeEntries]
  | cons e entries ih =>
    have hkey := h e (.head _)
    rw [List.map_cons, List.map_cons, Entry.node, Layout.writeEntries, isSimpleKey_key hkey,
      simpleKey_key hkey, ih (fun e he => h e (.tail _ he))]
    rfl

theorem write_record {entries : List Entry} (hne : entries ≠ []) (h : ∀ e ∈ entries, IsKey e.key)
    (indent column : Nat) :
    Layout.write .newLine indent column (.mapping (entries.map Entry.node)) =
      '\n' :: (List.replicate (indent + Layout.step) ' ' ++ Layout.joinLines (indent + Layout.step)
        (entries.map (entryLine (indent + Layout.step)))) := by
  have hempty : (entries.map Entry.node).isEmpty = false := by simpa using hne
  rw [Layout.write, hempty, if_neg (by simp)]
  dsimp only
  rw [writeEntries_map _ h]
  rfl

theorem writeItems_map (indent : Nat) (items : List Tree) :
    Layout.writeItems indent items =
      items.map fun item => '-' :: Layout.write .inline indent (indent + 1) item := by
  induction items with
  | nil => simp [Layout.writeItems]
  | cons item items ih => rw [Layout.writeItems, ih, List.map_cons]

theorem isWritten_joinLines (indent : Nat) {lines : List (List Char)}
    (h : ∀ line ∈ lines, line.all isWritten = true) :
    (Layout.joinLines indent lines).all isWritten = true := by
  fun_induction Layout.joinLines indent lines with
  | case1 => rfl
  | case2 line => exact h line (.head _)
  | case3 line lines hne ih =>
    rw [List.all_append, List.all_append, h line (.head _), isWritten_newLine,
      ih (fun line hline => h line (.tail _ hline))]
    rfl

theorem isWritten_opening (opening : Layout.Opening) (indent : Nat) :
    (opening.write indent).all isWritten = true := by
  cases opening with
  | inline => rfl
  | newLine => exact isWritten_newLine indent

theorem isWritten_entryLine {e : Entry} (hkey : IsKey e.key)
    (htree : ∀ opening indent column,
      (Layout.write opening indent column e.tree).all isWritten = true)
    (indent : Nat) : (entryLine indent e).all isWritten = true := by
  rw [entryLine, List.all_append, hkey.all_isWritten, List.all_cons, htree]
  rfl

theorem Denotes.all_isWritten {d : Nat} {tree : Tree} {v : Value} (h : Denotes d tree v)
    (opening : Layout.Opening) (indent column : Nat) :
    (Layout.write opening indent column tree).all isWritten = true := by
  induction h generalizing opening indent column with
  | scalar d hreadable hvalue =>
    rw [Layout.write, List.all_cons, (form_write hreadable _ _).all_isWritten]
    rfl
  | list d items hitems ih =>
    rw [Layout.write]
    split
    . rfl
    . dsimp only
      rw [List.all_append, isWritten_opening, writeItems_map, isWritten_joinLines]
      . rfl
      . intro line hline
        rw [List.map_map, List.mem_map] at hline
        rcases hline with ⟨i, hi, rfl⟩
        rw [Function.comp_apply, List.all_cons, ih i hi]
        rfl
  | record d entries hne hkeys hkey hentries ih =>
    rw [Layout.write]
    split
    . rfl
    . dsimp only
      rw [List.all_append, isWritten_opening, writeEntries_map _ hkey, isWritten_joinLines]
      . rfl
      . intro line hline
        rw [List.mem_map] at hline
        rcases hline with ⟨e, he, rfl⟩
        exact isWritten_entryLine (hkey e he) (ih e he) _

end Yaml
end NodeSettings
