import NodeSettings.Proofs.Yaml.Record
import NodeSettings.Proofs.Yaml.Scan.Token

/-!
This module contains the tokens of a tree that is written as a document. The indentation of what
follows a node says which collections end there.
-/

namespace NodeSettings
namespace Yaml

def signToken (tag : Tag) : Token :=
  .tag (some "!!") (String.ofList ((Layout.shortTag tag).drop 2))

mutual

def treeTokens : Tree → List Token
  | .scalar tag text => [.scalar text (isPlain tag text)]
  | .tagged tag _ text => [signToken tag, .scalar text false]
  | .block tag lines => [signToken tag, .scalar (.ofChars (lines.flatMap (· ++ ['\n']))) false]
  | .sequence items =>
    if items.isEmpty then [.flowSequenceStart, .flowSequenceEnd] else itemTokens items
  | .mapping entries => .blockMappingStart :: (entryTokens entries ++ [.blockEnd])
  | .set entries =>
    signToken .set :: if entries.isEmpty then [.flowMappingStart, .flowMappingEnd]
      else .blockMappingStart :: (entryTokens entries ++ [.blockEnd])

def itemTokens : List Tree → List Token
  | [] => []
  | item :: items => .blockEntry :: (treeTokens item ++ itemTokens items)

def entryTokens : List (Tree × Tree) → List Token
  | [] => []
  | (key, value) :: entries =>
    .key :: (treeTokens key ++ .value :: (treeTokens value ++ entryTokens entries))

end

namespace Scanner

variable {p : Cursor} {content tail : List Char} {tokens : List Token} {outer : List Int}
variable {indent next column : Nat}

def ReadsAs (indent : Nat) (written : List Char) (read : List Token) (allowsKey : Bool) : Prop :=
  ∀ ⦃p : Cursor⦄ ⦃content tail : List Char⦄ (tokens : List Token) (outer : List Int) ⦃next : Nat⦄,
    written ++ '\n' :: tail <:+ p.rest → indent < (p.skipTo (written ++ '\n' :: tail)).column →
    NextLine tail next content → next ≤ indent →
    ∃ c, (inBlock p (written ++ '\n' :: tail) tokens indent outer allowsKey).ready = .ok c
      ∧ Leads c ((inBlock p content (read.reverse ++ tokens) indent outer true).unwind next)

theorem Form.isContent {text : Text} {isPlain : Bool} {written : List Char} {width start : Nat}
    (h : Form text width start isPlain written) (more : List Char) :
    IsContent (written ++ more) := by
  cases h with
  | plain htext hwords hleading => exact hwords.isContent_writePlain _ _ _ more
  | single htext hsingle =>
    intro c hc
    cases hc
    decide
  | double =>
    intro c hc
    cases hc
    decide

theorem readsAs_scalar {tag : Tag} {text : Text} (h : IsReadable tag text)
    (hlimit : indent + Layout.step + 1 ≤ Style.width) (opening : Layout.Opening) (column : Nat)
    (allowsKey : Bool) :
    ReadsAs indent (Layout.write opening indent column (.scalar tag text))
      (treeTokens (.scalar tag text)) allowsKey := by
  intro p content tail tokens outer next hp hstart hnext hindent
  have hform := form_write h (indent + Layout.step) (column + 1)
  rw [Layout.write] at hp hstart ⊢
  rw [treeTokens]
  generalize Style.write false (indent + Layout.step) (column + 1) tag text = written at *
  have hcontent := Form.isContent hform ('\n' :: tail)
  have hbehind : written ++ '\n' :: tail <:+ p.rest := Cursor.suffix_of_cons hp
  have hcolumn : (p.skipTo (written ++ '\n' :: tail)).column =
      (p.skipTo (' ' :: (written ++ '\n' :: tail))).column + 1 :=
    (Cursor.column_next (show ' ' :: (written ++ '\n' :: tail) <:+ p.rest from hp) rfl).1
  rw [List.cons_append] at hstart
  refine ⟨inBlock p (written ++ '\n' :: tail) tokens indent outer allowsKey, ?_, ?_⟩
  . have hready := ready_inBlock tokens indent outer allowsKey
      (show List.replicate 1 ' ' ++ (written ++ '\n' :: tail) <:+ p.rest from hp) hcontent
    rw [unwind_inBlock_of_le (by omega)] at hready
    exact hready
  . apply leads_scalar hform (Nat.lt_add_of_pos_right (by decide)) hlimit hbehind (by omega) hnext
      hindent

theorem leads_itemLine (tokens : List Token) (outer : List Int) {tag : Tag} {text : Text}
    (h : IsReadable tag text)
    (hlimit : indent + Layout.step + 1 ≤ Style.width)
    (hp : '-' :: Layout.write .inline indent (indent + 1) (.scalar tag text) ++ '\n' :: tail
      <:+ p.rest)
    (hstart : indent = (p.skipTo ('-' :: Layout.write .inline indent (indent + 1)
      (.scalar tag text) ++ '\n' :: tail)).column)
    (hnext : NextLine tail next content) (hindent : next ≤ indent) :
    Leads (inBlock p ('-' :: Layout.write .inline indent (indent + 1) (.scalar tag text)
        ++ '\n' :: tail) tokens indent outer true)
      ((inBlock p content ((.blockEntry :: treeTokens (.scalar tag text)).reverse ++ tokens)
        indent outer true).unwind next) := by
  have hread := readsAs_scalar h hlimit .inline (indent + 1) true
  rw [Layout.write] at hp hstart hread ⊢
  have hbehind : ' ' :: Style.write false (indent + Layout.step) (indent + 1 + 1) tag text
      ++ '\n' :: tail <:+ p.rest :=
    Cursor.suffix_of_cons hp
  have hcolumn := (Cursor.column_next (show '-' :: (' ' :: Style.write false
    (indent + Layout.step) (indent + 1 + 1) tag text ++ '\n' :: tail) <:+ p.rest from hp)
    (by decide)).1
  rw [List.cons_append] at hstart
  rcases hread (.blockEntry :: tokens) outer hbehind (by omega) hnext hindent with
    ⟨c, hready, hleads⟩
  have hitem := leads_item hp (congrArg Nat.cast hstart) hready
  rw [List.reverse_cons, List.append_assoc]
  exact hitem.trans hleads

theorem isContent_item (more : List Char) : IsContent ('-' :: more) := by
  intro c hc
  cases hc
  decide

theorem nextLine_item (indent : Nat) (more : List Char) :
    NextLine (List.replicate indent ' ' ++ '-' :: ' ' :: more) indent ('-' :: ' ' :: more) := by
  refine ⟨rfl, isContent_item _, ?_⟩
  cases indent with
  | zero => rfl
  | succ indent => exact startsWithMark_of_indented (by omega) _

theorem joinLines_items {items : List Tree} (hne : items ≠ [])
    (h : ∀ item ∈ items, ∃ tag text, item = .scalar tag text ∧ IsReadable tag text) (indent : Nat)
    (more : List Char) :
    ∃ more', Layout.joinLines indent (Layout.writeItems indent items) ++ more =
      '-' :: ' ' :: more' := by
  cases items with
  | nil => exact absurd rfl hne
  | cons item items =>
    rcases h item (.head _) with ⟨tag, text, rfl, -⟩
    rw [Layout.writeItems, Layout.write]
    cases Layout.writeItems indent items with
    | nil => exact ⟨_, rfl⟩
    | cons line lines => exact ⟨_, rfl⟩

theorem leads_items {items : List Tree} (hne : items ≠ [])
    (h : ∀ item ∈ items, ∃ tag text, item = .scalar tag text ∧ IsReadable tag text)
    (hlimit : indent + Layout.step + 1 ≤ Style.width)
    (hp : Layout.joinLines indent (Layout.writeItems indent items) ++ '\n' :: tail <:+ p.rest)
    (hstart : indent = (p.skipTo (Layout.joinLines indent (Layout.writeItems indent items)
      ++ '\n' :: tail)).column)
    (hnext : NextLine tail next content) (hindent : next ≤ indent) :
    Leads (inBlock p (Layout.joinLines indent (Layout.writeItems indent items) ++ '\n' :: tail)
        tokens indent outer true)
      ((inBlock p content ((itemTokens items).reverse ++ tokens) indent outer true).unwind
        next) := by
  induction items generalizing tokens with
  | nil => exact absurd rfl hne
  | cons item items ih =>
    rcases h item (.head _) with ⟨tag, text, rfl, hreadable⟩
    rw [itemTokens, ← List.cons_append, List.reverse_append, List.append_assoc]
    cases items with
    | nil =>
      simp only [Layout.writeItems, Layout.joinLines] at hp hstart ⊢
      exact leads_itemLine tokens outer hreadable hlimit hp hstart hnext hindent
    | cons item' items =>
      have hmore : ∀ item ∈ item' :: items, ∃ tag text,
          item = .scalar tag text ∧ IsReadable tag text :=
        fun item hitem => h item (.tail _ hitem)
      have hlines : Layout.joinLines indent (Layout.writeItems indent
            (.scalar tag text :: item' :: items)) ++ '\n' :: tail =
          ('-' :: Layout.write .inline indent (indent + 1) (.scalar tag text)) ++ '\n' ::
            (List.replicate indent ' ' ++ (Layout.joinLines indent (Layout.writeItems indent
              (item' :: items)) ++ '\n' :: tail)) := by
        simp [Layout.writeItems, Layout.joinLines, Style.newLine]
      rw [hlines] at hp hstart ⊢
      have hbreak := Cursor.suffix_of_append hp
      have hbehind := Cursor.suffix_of_append (Cursor.suffix_of_cons hbreak)
      have hcolumn := Cursor.column_newLine_indented hbreak
      have hnext' : NextLine (List.replicate indent ' ' ++ (Layout.joinLines indent
          (Layout.writeItems indent (item' :: items)) ++ '\n' :: tail)) indent
          (Layout.joinLines indent (Layout.writeItems indent (item' :: items))
            ++ '\n' :: tail) := by
        rcases joinLines_items (by simp) hmore indent ('\n' :: tail) with ⟨more, hline⟩
        rw [hline]
        exact nextLine_item indent more
      have hline := leads_itemLine tokens outer hreadable hlimit hp hstart hnext' (Nat.le_refl _)
      rw [unwind_inBlock_of_le (Int.le_refl _)] at hline
      exact hline.trans (ih (by simp) hmore hbehind hcolumn.symm)

theorem readsAs_list {items : List Tree}
    (h : ∀ item ∈ items, ∃ tag text, item = .scalar tag text ∧ IsReadable tag text)
    (hlimit : indent + Layout.step + 1 ≤ Style.width) (column : Nat) :
    ReadsAs indent (Layout.write .newLine indent column (.sequence items))
      (treeTokens (.sequence items)) false := by
  intro p content tail tokens outer next hp hstart hnext hindent
  rw [Layout.write] at hp hstart ⊢
  rw [treeTokens]
  by_cases hne : items = []
  . rw [hne] at hp hstart ⊢
    have hbrackets : '[' :: ']' :: '\n' :: tail <:+ p.rest := Cursor.suffix_of_cons hp
    have hcontent : IsContent ('[' :: ']' :: '\n' :: tail) := by
      intro c hc
      cases hc
      decide
    have hcolumn := (Cursor.column_next (show ' ' :: '[' :: ']' :: '\n' :: tail <:+ p.rest from hp)
      rfl).1
    have hstart : indent < (p.skipTo (' ' :: '[' :: ']' :: '\n' :: tail)).column := hstart
    refine ⟨_, ?_, leads_brackets hbrackets hnext⟩
    have hready := ready_inBlock tokens indent outer false
      (show List.replicate 1 ' ' ++ '[' :: ']' :: '\n' :: tail <:+ p.rest from hp) hcontent
    rw [unwind_inBlock_of_le (by omega)] at hready
    exact hready
  . have hempty : items.isEmpty = false := by simpa using hne
    rw [hempty] at hp hstart ⊢
    rcases joinLines_items hne h indent ('\n' :: tail) with ⟨more, hline⟩
    have hlines : '\n' :: (List.replicate indent ' ' ++ (Layout.joinLines indent
        (Layout.writeItems indent items) ++ '\n' :: tail)) <:+ p.rest := by
      rw [← List.append_assoc]
      exact hp
    have hnext' : NextLine (List.replicate indent ' ' ++ (Layout.joinLines indent
        (Layout.writeItems indent items) ++ '\n' :: tail)) indent
        (Layout.joinLines indent (Layout.writeItems indent items) ++ '\n' :: tail) := by
      rw [hline]
      exact nextLine_item indent more
    have hready := ready_inBlock_break tokens indent outer false hlines hnext'
    rw [unwind_inBlock_of_le (Int.le_refl _)] at hready
    have hcolumn := Cursor.column_newLine_indented hlines
    have hbehind := Cursor.suffix_of_append (Cursor.suffix_of_cons hlines)
    refine ⟨inBlock p (Layout.joinLines indent (Layout.writeItems indent items) ++ '\n' :: tail)
      tokens indent outer true, ?_, leads_items hne h hlimit hbehind hcolumn.symm hnext hindent⟩
    rw [← List.append_assoc] at hready
    exact hready

theorem endsWord_write (opening : Layout.Opening) (indent column : Nat) (tree : Tree)
    (more : List Char) : endsWord (Layout.write opening indent column tree ++ more) = true := by
  cases tree with
  | scalar tag text | tagged tag style text | block tag lines | set entries =>
    rw [Layout.write]
    rfl
  | sequence items =>
    rw [Layout.write]
    split
    . rfl
    . cases opening <;> rfl
  | mapping entries =>
    rw [Layout.write]
    split
    . rfl
    . cases opening <;> rfl

/--
The key and the value of one entry. Where the entry is the first of its record, the record opens in
front of the key: `opened` and `around` are the tokens and the indentations after that.
-/
theorem leads_entryLine {e : Entry} {before : Int} {opened : List Token} {around : List Int}
    (hkey : IsKey e.key)
    (hvalue : ReadsAs indent (Layout.write .newLine indent (indent + e.key.length + 1) e.tree)
      (treeTokens e.tree) false)
    (hopen : ∀ rest, behindKey p rest e.key tokens before outer indent =
      inBlock p rest (.value :: .scalar (.ofChars e.key) true :: .key :: opened) indent around
        false)
    (hbefore : before ≤ indent) (hp : entryLine indent e ++ '\n' :: tail <:+ p.rest)
    (hstart : (p.skipTo (entryLine indent e ++ '\n' :: tail)).column = indent)
    (hnext : NextLine tail next content) (hindent : next ≤ indent) :
    Leads (inBlock p (entryLine indent e ++ '\n' :: tail) tokens before outer true)
      ((inBlock p content ((entryTokens [e.node]).reverse ++ opened) indent around true).unwind
        next) := by
  have htokens : (entryTokens [e.node]).reverse ++ opened =
      (treeTokens e.tree).reverse ++ .value :: .scalar (.ofChars e.key) true :: .key :: opened := by
    simp [entryTokens, treeTokens, Entry.node, isPlain_key hkey]
  rw [htokens]
  rw [entryLine, List.append_assoc, List.cons_append] at hp hstart ⊢
  have hmore := endsWord_write .newLine indent (indent + e.key.length + 1) e.tree ('\n' :: tail)
  generalize Layout.write .newLine indent (indent + e.key.length + 1) e.tree = written at *
  have hsign := Cursor.suffix_of_append hp
  have hbehind := Cursor.suffix_of_cons hsign
  have hword := (Cursor.column_skipTo hp hkey.isWord.all_isWide).1
  have hcolumn := (Cursor.column_next hsign (by decide)).1
  rcases hvalue (.value :: .scalar (.ofChars e.key) true :: .key :: opened) around hbehind
    (by omega) hnext hindent with ⟨c, hready, hleads⟩
  refine .trans (leads_key hkey hp hmore ?_ ?_) hleads
  . rw [hstart]
    exact hbefore
  . rw [hstart, hopen]
    exact hready

theorem nextLine_key {e : Entry} (hkey : IsKey e.key) (indent : Nat) (lines : List (List Char))
    (more : List Char) :
    NextLine (List.replicate indent ' ' ++ (Layout.joinLines indent (entryLine indent e :: lines)
      ++ more)) indent (Layout.joinLines indent (entryLine indent e :: lines) ++ more) := by
  have hline : ∃ more', Layout.joinLines indent (entryLine indent e :: lines) ++ more =
      e.key ++ more' := by
    cases lines with
    | nil =>
      simp only [Layout.joinLines, entryLine, List.append_assoc]
      exact ⟨_, rfl⟩
    | cons line lines =>
      simp only [Layout.joinLines, entryLine, List.append_assoc]
      exact ⟨_, rfl⟩
  rcases hline with ⟨more', hline⟩
  rw [hline]
  refine ⟨rfl, ?_, ?_⟩
  . rcases hkey.isWord.exists_cons with ⟨c, w, hcons, hspace, hcomment, hprintable⟩
    rw [hcons]
    intro d hd
    cases hd
    exact ⟨hspace, hcomment, isWide_of_printable hprintable⟩
  . cases indent with
    | zero => exact hkey.startsWithMark_append more'
    | succ indent => exact startsWithMark_of_indented (by omega) _

theorem entryTokens_cons (entry : Tree × Tree) (entries : List (Tree × Tree)) :
    entryTokens (entry :: entries) = entryTokens [entry] ++ entryTokens entries := by
  rcases entry with ⟨key, value⟩
  simp [entryTokens]

theorem leads_entries {entries : List Entry} {before : Int} {opened : List Token}
    {around : List Int} (hne : entries ≠ []) (hkey : ∀ e ∈ entries, IsKey e.key)
    (hvalue : ∀ e ∈ entries, ReadsAs indent
      (Layout.write .newLine indent (indent + e.key.length + 1) e.tree) (treeTokens e.tree) false)
    (hopen : ∀ rest w, behindKey p rest w tokens before outer indent =
      inBlock p rest (.value :: .scalar (.ofChars w) true :: .key :: opened) indent around false)
    (hbefore : before ≤ indent)
    (hp : Layout.joinLines indent (entries.map (entryLine indent)) ++ '\n' :: tail <:+ p.rest)
    (hstart : (p.skipTo (Layout.joinLines indent (entries.map (entryLine indent))
      ++ '\n' :: tail)).column = indent)
    (hnext : NextLine tail next content) (hindent : next ≤ indent) :
    Leads (inBlock p (Layout.joinLines indent (entries.map (entryLine indent)) ++ '\n' :: tail)
        tokens before outer true)
      ((inBlock p content ((entryTokens (entries.map Entry.node)).reverse ++ opened) indent around
        true).unwind next) := by
  -- The induction is on the entries; only the first of them can open the record.
  induction entries generalizing tokens before outer opened with
  | nil => exact absurd rfl hne
  | cons e entries ih =>
    have hfirst := hkey e (.head _)
    have hread := hvalue e (.head _)
    rw [List.map_cons, List.map_cons, entryTokens_cons, List.reverse_append, List.append_assoc]
    cases entries with
    | nil =>
      exact leads_entryLine hfirst hread (fun rest => hopen rest e.key) hbefore hp hstart hnext
        hindent
    | cons e' entries =>
      have hlines : Layout.joinLines indent ((e :: e' :: entries).map (entryLine indent))
            ++ '\n' :: tail =
          entryLine indent e ++ '\n' :: (List.replicate indent ' ' ++ (Layout.joinLines indent
            ((e' :: entries).map (entryLine indent)) ++ '\n' :: tail)) := by
        simp [Layout.joinLines, Style.newLine]
      rw [List.map_cons] at hlines
      rw [hlines]
      rw [List.map_cons, hlines] at hp hstart
      have hbreak := Cursor.suffix_of_append hp
      have hbehind := Cursor.suffix_of_append (Cursor.suffix_of_cons hbreak)
      have hcolumn := Cursor.column_newLine_indented hbreak
      have hnext' := nextLine_key (hkey e' (.tail _ (.head _))) indent
        (entries.map (entryLine indent)) ('\n' :: tail)
      -- The next entry begins at the same indentation, so that nothing ends in front of it.
      have hline := leads_entryLine hfirst hread (fun rest => hopen rest e.key) hbefore hp hstart
        hnext' (Nat.le_refl _)
      rw [unwind_inBlock_of_le (Int.le_refl _)] at hline
      refine hline.trans (ih (by simp) (fun e he => hkey e (.tail _ he))
        (fun e he => hvalue e (.tail _ he)) ?_ (Int.le_refl _) hbehind hcolumn)
      intro rest w
      unfold behindKey
      rw [if_neg (Int.lt_irrefl _)]

theorem readsAs_record {entries : List Entry} (hne : entries ≠ [])
    (hkey : ∀ e ∈ entries, IsKey e.key)
    (hvalue : ∀ e ∈ entries, ReadsAs (indent + Layout.step)
      (Layout.write .newLine (indent + Layout.step) (indent + Layout.step + e.key.length + 1)
        e.tree) (treeTokens e.tree) false) (column : Nat) :
    ReadsAs indent (Layout.write .newLine indent column (.mapping (entries.map Entry.node)))
      (treeTokens (.mapping (entries.map Entry.node))) false := by
  intro p content tail tokens outer next hp hstart hnext hindent
  rw [write_record hne hkey, List.cons_append, List.append_assoc] at hp ⊢
  have hcolumn := Cursor.column_newLine_indented hp
  have hbehind := Cursor.suffix_of_append (Cursor.suffix_of_cons hp)
  have hless : indent < indent + Layout.step := Nat.lt_add_of_pos_right (by decide)
  have hopen : ∀ rest w, behindKey p rest w tokens indent outer (indent + Layout.step) =
      inBlock p rest (.value :: .scalar (.ofChars w) true :: .key :: .blockMappingStart :: tokens)
        (indent + Layout.step : Nat) (indent :: outer) false := by
    intro rest w
    unfold behindKey
    rw [if_pos (by omega)]
  have hleads := leads_entries hne hkey hvalue hopen (by omega) hbehind hcolumn hnext (by omega)
  rw [unwind_inBlock_of_lt (by omega)] at hleads
  have htokens : (treeTokens (.mapping (entries.map Entry.node))).reverse ++ tokens =
      .blockEnd :: ((entryTokens (entries.map Entry.node)).reverse
        ++ .blockMappingStart :: tokens) := by
    simp [treeTokens]
  rw [htokens]
  refine ⟨_, ?_, hleads⟩
  cases entries with
  | nil => exact absurd rfl hne
  | cons e entries =>
    have hready := ready_inBlock_break tokens indent outer false hp
      (nextLine_key (hkey e (.head _)) (indent + Layout.step) _ ('\n' :: tail))
    rw [unwind_inBlock_of_le (by omega)] at hready
    exact hready

theorem exists_scalar {tree : Tree} {v : Value} (h : Denotes 0 tree v) :
    ∃ tag text, tree = .scalar tag text ∧ IsReadable tag text := by
  cases h with
  | scalar d hreadable hvalue => exact ⟨_, _, rfl, hreadable⟩

theorem readsAs_of_denotes {d : Nat} {tree : Tree} {v : Value} (h : Denotes d tree v) {indent : Nat}
    (hlimit : indent + Layout.step * d + Layout.step + 1 ≤ Style.width) (column : Nat) :
    ReadsAs indent (Layout.write .newLine indent column tree) (treeTokens tree) false := by
  induction h generalizing indent column with
  | scalar d hreadable hvalue =>
    apply readsAs_scalar hreadable
    omega
  | list d items hitems ih =>
    apply readsAs_list
    . intro item hitem
      rw [List.mem_map] at hitem
      rcases hitem with ⟨i, hi, rfl⟩
      exact exists_scalar (hitems i hi)
    . omega
  | record d entries hne hkeys hkey hentries ih =>
    rw [Nat.mul_succ] at hlimit
    exact readsAs_record hne hkey (fun e he => ih e he (by omega) _) column

theorem tokens_of_leads {cs : List Char} {read : List Token} (h : IsContent cs)
    (hleads : Leads (inBlock ⟨cs, 0, 0, 0⟩ cs [] (-1) [] true)
      (inBlock ⟨cs, 0, 0, 0⟩ [] read.reverse 0 [-1] true)) :
    Yaml.tokens cs = read ++ [.blockEnd, .streamEnd] := by
  have hstart : Cursor.skipTo ⟨cs, 0, 0, 0⟩ cs = ⟨cs, 0, 0, 0⟩ := by
    unfold Cursor.skipTo
    rw [Nat.sub_self, Cursor.skip]
  have hcs : List.replicate 0 ' ' ++ cs <:+ (Cursor.mk cs 0 0 0).rest := List.suffix_refl cs
  have hready := ready_inBlock [] (-1) [] true hcs h
  rw [unwind_inBlock_of_le (by omega)] at hready
  have hrun := hleads.run_eq hready (token_documentEnd List.nil_suffix) rfl (Nat.lt_succ_self _)
  dsimp only [inBlock] at hrun
  rw [List.replicate_zero, List.nil_append, hstart] at hrun
  exact hrun.trans (by simp)

theorem leads_root {entries : List Entry} {p : Cursor} (hne : entries ≠ [])
    (hkey : ∀ e ∈ entries, IsKey e.key)
    (hvalue : ∀ e ∈ entries, ReadsAs 0
      (Layout.write .newLine 0 (0 + e.key.length + 1) e.tree) (treeTokens e.tree) false)
    (hp : Layout.joinLines 0 (entries.map (entryLine 0)) ++ ['\n'] <:+ p.rest)
    (hstart : (p.skipTo (Layout.joinLines 0 (entries.map (entryLine 0)) ++ ['\n'])).column = 0) :
    Leads (inBlock p (Layout.joinLines 0 (entries.map (entryLine 0)) ++ ['\n']) [] (-1) [] true)
      (inBlock p [] (.blockMappingStart :: entryTokens (entries.map Entry.node)).reverse 0 [-1]
        true) := by
  have hopen : ∀ rest w, behindKey p rest w [] (-1) [] (0 : Nat) =
      inBlock p rest (.value :: .scalar (.ofChars w) true :: .key :: [.blockMappingStart])
        (0 : Nat) [-1] false := by
    intro rest w
    unfold behindKey
    rw [if_pos (by decide)]
  have hend : NextLine [] 0 [] := by
    refine ⟨rfl, ?_, rfl⟩
    intro c hc
    cases hc
  have hleads := leads_entries hne hkey hvalue hopen (by decide) hp hstart hend (Nat.le_refl _)
  rw [unwind_inBlock_of_le (Int.le_refl _)] at hleads
  rw [List.reverse_cons]
  exact hleads

end Scanner

theorem document_record {entries : List Entry} (hne : entries ≠ [])
    (h : ∀ e ∈ entries, IsKey e.key) :
    Layout.document (.mapping (entries.map Entry.node)) =
      Layout.joinLines 0 (entries.map (entryLine 0)) ++ ['\n'] := by
  have hempty : (entries.map Entry.node).isEmpty = false := by simpa using hne
  unfold Layout.document Layout.root Layout.ending
  dsimp only
  rw [hempty, if_neg (by simp), writeEntries_map _ h]

theorem tokens_document {d : Nat} {entries : List (Tree × Tree)} {v : Value}
    (h : Denotes d (.mapping entries) v) (hlimit : Layout.step * d + 1 ≤ Style.width) :
    tokens (Layout.document (.mapping entries)) =
      treeTokens (.mapping entries) ++ [.streamEnd] := by
  cases h with
  | record d entries hne hkeys hkey hentries =>
    rw [Nat.mul_succ] at hlimit
    have hcontent : IsContent (Layout.joinLines 0 (entries.map (entryLine 0)) ++ ['\n']) := by
      cases entries with
      | nil => exact absurd rfl hne
      | cons e entries => exact (Scanner.nextLine_key (hkey e (.head _)) 0 _ ['\n']).isContent
    have hread (e : Entry) (he : e ∈ entries) : Scanner.ReadsAs 0
        (Layout.write .newLine 0 (0 + e.key.length + 1) e.tree) (treeTokens e.tree) false :=
      Scanner.readsAs_of_denotes (hentries e he) (by omega) _
    rw [document_record hne hkey]
    rw [Scanner.tokens_of_leads hcontent
      (Scanner.leads_root hne hkey hread (List.suffix_refl _) ?_)]
    . simp [treeTokens]
    . unfold Cursor.skipTo
      rw [Nat.sub_self, Cursor.skip]

end Yaml
end NodeSettings
