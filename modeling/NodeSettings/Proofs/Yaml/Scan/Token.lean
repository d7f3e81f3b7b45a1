import NodeSettings.Proofs.Yaml.Scalar
import NodeSettings.Proofs.Yaml.Scan.Run

/-!
This module contains the tokens of documents that have been written: scalars, keys, the items of
sequences, and the end.
-/

namespace NodeSettings
namespace Yaml
namespace Scanner

variable {s t c : Scanner} {p : Cursor} {content tail more : List Char}
variable {tokens : List Token} {indent : Int} {outer : List Int} {allowsKey : Bool}

variable {cs : List Char} {first : Char}

theorem token_single (hrest : s.cursor.rest = '\'' :: cs) :
    s.token = s.atProperty (quotedToken readSingle) := by
  simp [token, hrest]

theorem token_double (hrest : s.cursor.rest = '"' :: cs) :
    s.token = s.atProperty (quotedToken readDouble) := by
  simp [token, hrest]

theorem token_flowSequenceStart (hrest : s.cursor.rest = '[' :: cs) :
    s.token = s.atFlowStart .flowSequenceStart := by
  simp [token, hrest]

theorem token_flowSequenceEnd (hrest : s.cursor.rest = ']' :: cs) :
    s.token = s.atFlowEnd .flowSequenceEnd := by
  simp [token, hrest]

theorem token_blockEntry (hrest : s.cursor.rest = '-' :: ' ' :: cs) :
    s.token = s.atBlockEntry := by
  simp [token, hrest, startsWithMark, endsWord, isBlank]

theorem token_value (hrest : s.cursor.rest = ':' :: cs) (hcs : endsWord cs = true) :
    s.token = s.atValue := by
  simp [token, hrest, hcs]

theorem token_end (hrest : s.cursor.rest = []) : s.token = s.atEnd := by
  simp [token, hrest]

theorem token_plain (hrest : s.cursor.rest = first :: cs) (hflow : s.inFlow = false)
    (hc : Style.isPrintableAscii first = true) (hspace : first ≠ ' ')
    (hleading : Style.hasLeadingIndicator (first :: cs) = false)
    (hmark : startsWithMark (first :: cs) = false ∨ s.cursor.column ≠ 0) : s.token = s.atPlain := by
  have hblank := isBlank_of_printable hc hspace
  have hbreak := isBreak_of_printable hc
  unfold Style.hasLeadingIndicator at hleading
  rw [Bool.or_eq_false_iff] at hleading
  rcases hleading with ⟨hlist, hsign⟩
  simp at hlist hsign
  have hstarts : startsPlain false (first :: cs) = true := by
    unfold startsPlain
    by_cases hindicator : (first = '?' ∨ first = ':') ∨ first = '-'
    . have hword := hsign hindicator
      rcases hindicator with (rfl | rfl) | rfl <;> simp [hword]
    . simp only [not_or] at hindicator
      simp [hblank, hbreak, hlist, hindicator]
  have hneither : ¬ (s.cursor.column = 0 ∧ startsWithMark (first :: cs) = true) := by
    rcases hmark with hmark | hmark
    . simp [hmark]
    . simp [hmark]
  unfold token
  simp only [hrest, List.head?_cons, List.drop_one, List.tail_cons, hflow, Bool.false_or,
    Bool.not_false, Bool.and_true, Bool.and_eq_true, beq_iff_eq, hlist, and_false, if_false]
  rw [if_neg (fun h => hneither ⟨h.1.1, h.2⟩), if_neg (fun h => hneither ⟨h.1.1, h.2⟩)]
  rw [if_neg, if_neg, if_neg, if_pos hstarts]
  . rintro ⟨rfl, hword⟩
    simp [hsign] at hword
  . rintro ⟨rfl, hword⟩
    simp [hsign] at hword
  . rintro ⟨rfl, hword⟩
    simp [hsign] at hword

theorem hasLeadingIndicator_writePlain (split : Bool) (width column : Nat) (hwords : Words cs)
    (h : Style.hasLeadingIndicator cs = false) (more : List Char) :
    Style.hasLeadingIndicator (Style.writePlain split width 0 column cs ++ more) = false := by
  rcases hwords.exists_cons with ⟨c, cs, rfl, hspace, -, -⟩
  unfold Style.hasLeadingIndicator at h
  rw [Style.writePlain_cons split width column hspace, List.cons_append, Style.hasLeadingIndicator]
  rw [Bool.or_eq_false_iff] at h ⊢
  refine ⟨h.1, ?_⟩
  rw [Bool.and_eq_false_iff]
  rw [Bool.and_eq_false_iff] at h
  rcases h.2 with hsign | hword
  . exact .inl hsign
  . refine .inr ?_
    -- the word goes on, and so does what is written
    cases cs with
    | nil => cases hword
    | cons d cs =>
      have hd : d ≠ ' ' := by
        rintro rfl
        cases hword
      rw [Style.writePlain_cons split width _ hd]
      exact hword

theorem dropStale_eq {candidate : Option Candidate} (houter : s.outerCandidates = [])
    (h : freshCandidate s.cursor s.candidate = .ok candidate) :
    s.dropStale = .ok { s with candidate } := by
  unfold dropStale
  rw [houter, h]
  cases s
  cases houter
  rfl

theorem dropStale_inBlock {candidate : Option Candidate}
    (h : ∀ c ∈ candidate, c.isRequired = false ∧ c.line ≠ (p.skipTo content).line) :
    { inBlock p content tokens indent outer allowsKey with candidate }.dropStale =
      .ok (inBlock p content tokens indent outer allowsKey) := by
  have hfresh : freshCandidate (p.skipTo content) candidate = .ok none := by
    cases candidate with
    | none => rfl
    | some c =>
      rcases h c rfl with ⟨hrequired, hline⟩
      have hstale : Candidate.isStale (p.skipTo content) c = true := by
        unfold Candidate.isStale
        rw [Bool.or_eq_true]
        exact .inl (by simpa using hline)
      unfold freshCandidate
      dsimp only
      rw [hstale, hrequired]
      rfl
  rw [dropStale_eq rfl hfresh]
  rfl

theorem saveCandidate_inBlock (tokens : List Token) (outer : List Int) (allowsKey : Bool)
    {start : List Char} {indent : Nat}
    (h : indent < (p.skipTo start).column) :
    ∃ candidate : Option Candidate,
      (inBlock p start tokens indent outer allowsKey).saveCandidate =
        .ok { inBlock p start tokens indent outer allowsKey with candidate }
      ∧ ∀ c ∈ candidate, c.isRequired = false ∧ c.line = (p.skipTo start).line := by
  cases allowsKey with
  | false => exact ⟨none, rfl, by simp⟩
  | true =>
    refine ⟨_, rfl, ?_⟩
    intro c hc
    cases hc
    refine ⟨?_, rfl⟩
    have hne : ((indent : Int) == ((p.skipTo start).column : Int)) = false := by
      rw [beq_eq_false_iff_ne]
      omega
    show (true && ((indent : Int) == ((p.skipTo start).column : Int))) = false
    rw [hne]
    rfl

theorem ready_atLine {candidate : Option Candidate} {column : Nat}
    (hp : '\n' :: tail <:+ p.rest) (hnext : NextLine tail column content)
    (h : ∀ c ∈ candidate, c.isRequired = false ∧ c.line ≠ (p.skipTo content).line) :
    { inBlock p content tokens indent outer true with candidate }.ready =
      .ok ((inBlock p content tokens indent outer true).unwind column) := by
  rw [hnext.eq] at hp
  have hcontent := Cursor.suffix_of_append (Cursor.suffix_of_cons hp)
  have hcolumn := Cursor.column_newLine_indented hp
  unfold ready
  rw [toNextToken_spaces (k := 0) rfl hcontent hnext.isContent]
  show (do
    let s ← { inBlock p content tokens indent outer true with candidate }.dropStale
    return s.unwind s.cursor.column) = _
  rw [dropStale_inBlock h, ← hcolumn]
  rfl

theorem ready_beforeLine {candidate : Option Candidate} {column : Nat}
    (hp : '\n' :: tail <:+ p.rest) (hnext : NextLine tail column content)
    (h : ∀ c ∈ candidate, c.isRequired = false ∧ c.line ≠ (p.skipTo content).line) :
    { inBlock p ('\n' :: tail) tokens indent outer allowsKey with candidate }.ready =
      .ok ((inBlock p content tokens indent outer true).unwind column) := by
  have hallows : (allowsKey || !false) = true := by
    cases allowsKey <;> rfl
  have hcolumn : (p.skipTo content).column = column := by
    rw [hnext.eq] at hp
    exact Cursor.column_newLine_indented hp
  unfold ready
  rw [toNextToken_break rfl hp hnext]
  show (do
    let s ← { inBlock p content tokens indent outer (allowsKey || !false) with
      candidate }.dropStale
    return s.unwind s.cursor.column) = _
  rw [dropStale_inBlock h, hallows, ← hcolumn]
  rfl

section

variable {text : Text} {isPlain : Bool} {written : List Char} {width start : Nat}
variable {indent column : Nat} {candidate : Option Candidate}

theorem atPlain_eq {scan : Plain.Scan} (hsave : s.saveCandidate = .ok t)
    (hread : readPlain t.inFlow (t.indent + 1).toNat t.cursor = scan) :
    s.atPlain = .ok (push { t with cursor := scan.after, allowsKey := scan.crossesLine }
      (.scalar (.ofChars scan.text) true)) := by
  unfold atPlain
  rw [hsave, Except.ok_bind, hread]
  rfl

theorem atProperty_quoted {read : List Char → Except Fault (Text × List Char)} {rest : List Char}
    (hsave : s.saveCandidate = .ok t) (hread : read (t.cursor.rest.drop 1) = .ok (text, rest)) :
    s.atProperty (quotedToken read) =
      .ok (push { t with cursor := t.cursor.skipTo rest, allowsKey := false }
        (.scalar text false)) := by
  unfold atProperty quotedToken
  rw [hsave, Except.ok_bind, hread]
  rfl

theorem leads_quoted {quote : Char} {read : List Char → Except Fault (Text × List Char)}
    (htoken : ∀ (s : Scanner) (cs : List Char), s.cursor.rest = quote :: cs →
      s.token = s.atProperty (quotedToken read))
    (hread : read (written ++ '\n' :: tail) = .ok (text, '\n' :: tail))
    (hp : quote :: (written ++ '\n' :: tail) <:+ p.rest) (hnext : NextLine tail column content)
    (hsave : (inBlock p (quote :: (written ++ '\n' :: tail)) tokens indent outer
        allowsKey).saveCandidate =
      .ok { inBlock p (quote :: (written ++ '\n' :: tail)) tokens indent outer allowsKey with
        candidate })
    (hstale : ∀ c ∈ candidate, c.isRequired = false ∧ c.line ≠ (p.skipTo content).line) :
    Leads (inBlock p (quote :: (written ++ '\n' :: tail)) tokens indent outer allowsKey)
      ((inBlock p content (.scalar text false :: tokens) indent outer true).unwind column) := by
  have hbreak : '\n' :: tail <:+ p.rest := Cursor.suffix_of_append (Cursor.suffix_of_cons hp)
  have hrest := Cursor.rest_skipTo hp
  have hskip : (p.skipTo (quote :: (written ++ '\n' :: tail))).skipTo ('\n' :: tail) =
      p.skipTo ('\n' :: tail) :=
    Cursor.skipTo_skipTo (show (quote :: written) ++ '\n' :: tail <:+ p.rest from hp)
  have hread : read ((p.skipTo (quote :: (written ++ '\n' :: tail))).rest.drop 1) =
      .ok (text, '\n' :: tail) := by
    rw [hrest]
    exact hread
  have htoken := htoken (inBlock p _ tokens indent outer allowsKey) _ hrest
  rw [atProperty_quoted hsave hread] at htoken
  dsimp only [inBlock] at htoken hskip
  rw [hskip] at htoken
  refine leads_of_token htoken ?_ (by simp [push]) ?_
  . exact ready_beforeLine hbreak hnext hstale
  . show (p.skipTo ('\n' :: tail)).rest.length < (p.skipTo _).rest.length
    rw [Cursor.rest_skipTo hbreak, hrest]
    simp only [List.length_cons, List.length_append]
    omega

theorem leads_scalar (hform : Form text width start isPlain written) (hwidth : indent < width)
    (hlimit : width + 1 ≤ Style.width) (hp : written ++ '\n' :: tail <:+ p.rest)
    (hstart : indent < (p.skipTo (written ++ '\n' :: tail)).column)
    (hnext : NextLine tail column content) (hcolumn : column ≤ indent) :
    Leads (inBlock p (written ++ '\n' :: tail) tokens indent outer allowsKey)
      ((inBlock p content (.scalar text isPlain :: tokens) indent outer true).unwind column) := by
  have hbreak := Cursor.suffix_of_append hp
  have hpositive : 0 < width := by omega
  rcases saveCandidate_inBlock tokens outer allowsKey hstart with ⟨candidate, hsave, hcandidate⟩
  have hstale : ∀ c ∈ candidate, c.isRequired = false ∧ c.line ≠ (p.skipTo content).line := by
    have hline : (p.skipTo (written ++ '\n' :: tail)).line < (p.skipTo content).line := by
      have hsplit : written ++ '\n' :: tail =
          (written ++ '\n' :: List.replicate column ' ') ++ content := by
        rw [hnext.eq]
        simp
      rw [hsplit] at hp ⊢
      exact Cursor.line_lt_skipTo hp (by simp)
    intro c hc
    rcases hcandidate c hc with ⟨hrequired, hsame⟩
    exact ⟨hrequired, by omega⟩
  cases hform with
  | @plain cs htext hwords hleading =>
    have hrest := Cursor.rest_skipTo hp
    have hcontent : content <:+ p.rest := by
      have htail := Cursor.suffix_of_cons hbreak
      rw [hnext.eq] at htail
      exact Cursor.suffix_of_append htail
    have hlead := hasLeadingIndicator_writePlain true width start hwords hleading ('\n' :: tail)
    have hread := readPlain_writePlain (m := indent + 1) hwords hpositive hwidth hnext (by omega)
      hp hstart
    rcases hwords.exists_cons with ⟨c, cs', hcons, hspace, -, hprintable⟩
    have hwrite := Style.writePlain_cons true width start hspace cs'
    rw [← hcons] at hwrite
    generalize Style.writePlain true width 0 start cs = written at *
    subst hwrite
    have htoken := token_plain (s := inBlock p _ tokens indent outer allowsKey) hrest rfl
      hprintable hspace hlead (.inr (Nat.ne_of_gt (Nat.zero_lt_of_lt hstart)))
    rw [atPlain_eq hsave hread] at htoken
    refine leads_of_token htoken ?_ (by simp [push]) ?_
    . rw [htext]
      exact ready_atLine hbreak hnext hstale
    . show (p.skipTo content).rest.length < (p.skipTo _).rest.length
      rw [Cursor.rest_skipTo hcontent, hrest, hnext.eq]
      simp only [List.length_cons, List.length_append]
      omega
  | @single cs htext hsingle =>
    rw [htext]
    exact leads_quoted (fun s cs hs => token_single hs)
      (readSingle_writeSingle hpositive (by simp) _ hsingle) hp hnext hsave hstale
  | double =>
    exact leads_quoted (fun s cs hs => token_double hs)
      (readDouble_writeDouble hpositive hlimit _ text _) hp hnext hsave hstale

end

variable {w : List Char}

theorem insertAt_eq (front : List Token) {back : List Token} (token : Token)
    (htokens : s.tokens = front ++ back) (hcount : s.count = s.tokens.length) :
    s.insertAt back.length token =
      { s with tokens := front ++ token :: back, count := s.count + 1 } := by
  have hbehind : s.count - back.length = front.length := by
    rw [hcount, htokens, List.length_append]
    omega
  unfold insertAt
  rw [hbehind, htokens]
  simp

def keyCandidate (p : Cursor) (start : List Char) (tokens : List Token) (indent : Int) :
    Candidate where
  position := tokens.length
  isRequired := indent == (p.skipTo start).column
  index := (p.skipTo start).index
  line := (p.skipTo start).line
  column := (p.skipTo start).column

theorem not_isStale_keyCandidate (hw : IsKey w) (hp : w ++ more <:+ p.rest) :
    Candidate.isStale (p.skipTo more) (keyCandidate p (w ++ more) tokens indent) = false := by
  have hindex := Cursor.index_skipTo hp
  have hline := (Cursor.column_skipTo hp hw.isWord.all_isWide).2
  have hshort := hw.short
  unfold Candidate.isStale keyCandidate
  dsimp only
  rw [Bool.or_eq_false_iff, bne_eq_false_iff_eq, decide_eq_false_iff_not]
  omega

theorem token_key (hw : IsKey w) (hp : w ++ ':' :: more <:+ p.rest) (hmore : endsWord more = true) :
    (inBlock p (w ++ ':' :: more) tokens indent outer true).token =
      .ok { inBlock p (':' :: more) (.scalar (.ofChars w) true :: tokens) indent outer false with
        candidate := some (keyCandidate p (w ++ ':' :: more) tokens indent) } := by
  have hrest := Cursor.rest_skipTo hp
  have hleading := hw.hasLeadingIndicator_append (':' :: more)
  have hmark := hw.startsWithMark_append (':' :: more)
  have hread := readPlain_key (m := (indent + 1).toNat) hw.isWord hp hmore
  rcases hw.isWord.exists_cons with ⟨c, w', hcons, hspace, -, hprintable⟩
  have hsave : (inBlock p (w ++ ':' :: more) tokens indent outer true).saveCandidate =
    .ok { inBlock p (w ++ ':' :: more) tokens indent outer true with
      candidate := some (keyCandidate p (w ++ ':' :: more) tokens indent) } := rfl
  rw [hcons, List.cons_append] at hrest hleading hmark
  have hfirst : (inBlock p (w ++ ':' :: more) tokens indent outer true).cursor.rest =
      c :: (w' ++ ':' :: more) := by
    rw [← hrest, hcons]
    rfl
  rw [token_plain hfirst rfl hprintable hspace hleading (.inl hmark), atPlain_eq hsave hread]
  rfl

theorem ready_key (hw : IsKey w) (hp : w ++ ':' :: more <:+ p.rest)
    (hindent : indent ≤ (p.skipTo (w ++ ':' :: more)).column) :
    { inBlock p (':' :: more) (.scalar (.ofChars w) true :: tokens) indent outer false with
      candidate := some (keyCandidate p (w ++ ':' :: more) tokens indent) }.ready =
    .ok { inBlock p (':' :: more) (.scalar (.ofChars w) true :: tokens) indent outer false with
      candidate := some (keyCandidate p (w ++ ':' :: more) tokens indent) } := by
  have hbehind := Cursor.suffix_of_append hp
  have hcontent : IsContent (':' :: more) := by
    intro c hc
    cases hc
    decide
  have hcolumn := (Cursor.column_skipTo hp hw.isWord.all_isWide).1
  have hfresh : freshCandidate (p.skipTo (':' :: more))
      (some (keyCandidate p (w ++ ':' :: more) tokens indent)) =
        .ok (some (keyCandidate p (w ++ ':' :: more) tokens indent)) := by
    unfold freshCandidate
    dsimp only
    rw [not_isStale_keyCandidate hw hp]
    rfl
  unfold ready
  rw [toNextToken_spaces (k := 0) rfl hbehind hcontent, dropStale_eq rfl hfresh, Except.ok_bind]
  rw [unwind_of_le]
  . rfl
  . show indent ≤ ((p.skipTo (':' :: more)).column : Int)
    omega

def behindKey (p : Cursor) (rest : List Char) (w : List Char) (tokens : List Token) (indent : Int)
    (outer : List Int) (column : Nat) : Scanner :=
  if indent < column then
    inBlock p rest (.value :: .scalar (.ofChars w) true :: .key :: .blockMappingStart :: tokens)
      column (indent :: outer) false
  else
    inBlock p rest (.value :: .scalar (.ofChars w) true :: .key :: tokens) indent outer false

theorem atValue_opens {u : Scanner} {candidate : Candidate} (h : s.candidate = some candidate)
    (hkey : { s with candidate := none }.insertAt candidate.position .key = t)
    (hopens : t.opensAt candidate.column = true)
    (hstart : (t.enter candidate.column).insertAt candidate.position .blockMappingStart = u) :
    s.atValue = .ok (({ u with allowsKey := false }.advance 1).push .value) := by
  unfold atValue
  rw [h]
  dsimp only
  rw [hkey, if_pos hopens, hstart]
  rfl

theorem atValue_goesOn {candidate : Candidate} (h : s.candidate = some candidate)
    (hkey : { s with candidate := none }.insertAt candidate.position .key = t)
    (hopens : t.opensAt candidate.column = false) :
    s.atValue = .ok (({ t with allowsKey := false }.advance 1).push .value) := by
  unfold atValue
  rw [h]
  dsimp only
  rw [hkey, if_neg (by simp [hopens])]
  rfl

theorem token_keySign (w : List Char) (tokens : List Token) (indent : Int) (outer : List Int)
    (hp : ':' :: more <:+ p.rest) (hmore : endsWord more = true) (start : List Char) :
    { inBlock p (':' :: more) (.scalar (.ofChars w) true :: tokens) indent outer false with
      candidate := some (keyCandidate p start tokens indent) }.token =
    .ok (behindKey p more w tokens indent outer (p.skipTo start).column) := by
  have hrest := Cursor.rest_skipTo hp
  have hskip : (p.skipTo (':' :: more)).skip 1 = p.skipTo more :=
    Cursor.skip_one hp
  have hkey : (inBlock p (':' :: more) (.scalar (.ofChars w) true :: tokens) indent outer
      false).insertAt tokens.length .key =
      inBlock p (':' :: more) (.scalar (.ofChars w) true :: .key :: tokens) indent outer false :=
    insertAt_eq [.scalar (.ofChars w) true] .key rfl rfl
  have hstart : (inBlock p (':' :: more) (.scalar (.ofChars w) true :: .key :: tokens)
      (p.skipTo start).column (indent :: outer) false).insertAt tokens.length .blockMappingStart =
      inBlock p (':' :: more) (.scalar (.ofChars w) true :: .key :: .blockMappingStart :: tokens)
        (p.skipTo start).column (indent :: outer) false :=
    insertAt_eq [.scalar (.ofChars w) true, .key] .blockMappingStart rfl rfl
  rw [token_value hrest hmore]
  unfold behindKey
  split
  . next hless =>
    have hopens : (inBlock p (':' :: more) (.scalar (.ofChars w) true :: .key :: tokens) indent
        outer false).opensAt (p.skipTo start).column = true := decide_eq_true hless
    rw [atValue_opens (show _ = some (keyCandidate p start tokens indent) from rfl) hkey hopens
      hstart, advance]
    dsimp only [inBlock]
    rw [hskip]
    rfl
  . next hless =>
    have hopens : (inBlock p (':' :: more) (.scalar (.ofChars w) true :: .key :: tokens) indent
        outer false).opensAt (p.skipTo start).column = false := decide_eq_false hless
    rw [atValue_goesOn (show _ = some (keyCandidate p start tokens indent) from rfl) hkey hopens,
      advance]
    dsimp only [inBlock]
    rw [hskip]
    rfl

theorem leads_key (hw : IsKey w) (hp : w ++ ':' :: more <:+ p.rest) (hmore : endsWord more = true)
    (hindent : indent ≤ (p.skipTo (w ++ ':' :: more)).column)
    (hready : (behindKey p more w tokens indent outer
      (p.skipTo (w ++ ':' :: more)).column).ready = .ok c) :
    Leads (inBlock p (w ++ ':' :: more) tokens indent outer true) c := by
  have hbehind := Cursor.suffix_of_append hp
  have hsign := token_keySign w tokens indent outer hbehind hmore (w ++ ':' :: more)
  have hrest := Cursor.rest_skipTo hp
  have hrest' := Cursor.rest_skipTo hbehind
  refine .trans (leads_of_token (token_key hw hp hmore) (ready_key hw hp hindent)
    (by simp [inBlock]) ?_)
    (leads_of_token hsign hready ?_ ?_)
  . show (p.skipTo (':' :: more)).rest.length < (p.skipTo (w ++ ':' :: more)).rest.length
    have hpositive := List.length_pos_iff.mpr hw.isWord.ne_nil
    rw [hrest, hrest', List.length_append]
    omega
  . unfold behindKey
    split <;> simp [inBlock]
  . have hcursor : (behindKey p more w tokens indent outer
        (p.skipTo (w ++ ':' :: more)).column).cursor = p.skipTo more := by
      unfold behindKey
      split <;> rfl
    rw [hcursor]
    exact Cursor.length_rest_lt hbehind

theorem token_openBracket (hp : '[' :: more <:+ p.rest) :
    (inBlock p ('[' :: more) tokens indent outer false).token =
      .ok { inBlock p more (.flowSequenceStart :: tokens) indent outer true with
        outerCandidates := [none] } := by
  have hskip : (p.skipTo ('[' :: more)).skip 1 = p.skipTo more :=
    Cursor.skip_one hp
  rw [token_flowSequenceStart (Cursor.rest_skipTo hp)]
  show Except.ok (push { inBlock p ('[' :: more) tokens indent outer true with
    cursor := (p.skipTo ('[' :: more)).skip 1
    outerCandidates := [none] } .flowSequenceStart) = _
  rw [hskip]
  rfl

theorem token_closeBracket (hp : ']' :: more <:+ p.rest) :
    { inBlock p (']' :: more) tokens indent outer true with outerCandidates := [none] }.token =
      .ok (inBlock p more (.flowSequenceEnd :: tokens) indent outer false) := by
  have hskip : (p.skipTo (']' :: more)).skip 1 = p.skipTo more :=
    Cursor.skip_one hp
  rw [token_flowSequenceEnd (Cursor.rest_skipTo hp)]
  show Except.ok (push { inBlock p (']' :: more) tokens indent outer false with
    cursor := (p.skipTo (']' :: more)).skip 1 } .flowSequenceEnd) = _
  rw [hskip]
  rfl

theorem ready_inBrackets (hp : content <:+ p.rest) (h : IsContent content) :
    { inBlock p content tokens indent outer allowsKey with outerCandidates := [none] }.ready =
      .ok { inBlock p content tokens indent outer allowsKey with outerCandidates := [none] } := by
  unfold ready
  rw [toNextToken_spaces (k := 0) rfl hp h]
  rfl

theorem leads_brackets {column : Nat} (hp : '[' :: ']' :: '\n' :: tail <:+ p.rest)
    (hnext : NextLine tail column content) :
    Leads (inBlock p ('[' :: ']' :: '\n' :: tail) tokens indent outer false)
      ((inBlock p content (.flowSequenceEnd :: .flowSequenceStart :: tokens) indent outer
        true).unwind column) := by
  have hclose := Cursor.suffix_of_cons hp
  have hbreak := Cursor.suffix_of_cons hclose
  have hcontent : IsContent (']' :: '\n' :: tail) := by
    intro c hc
    cases hc
    decide
  refine .trans (leads_of_token (token_openBracket hp) (ready_inBrackets hclose hcontent)
    (by simp [inBlock]) ?_) (leads_of_token (token_closeBracket hclose)
      (ready_inBlock_break _ _ _ _ hbreak hnext) (by simp [inBlock]) ?_)
  . exact Cursor.length_rest_lt hp
  . exact Cursor.length_rest_lt hclose

theorem token_item (hp : '-' :: ' ' :: more <:+ p.rest)
    (hcolumn : indent = (p.skipTo ('-' :: ' ' :: more)).column) :
    (inBlock p ('-' :: ' ' :: more) tokens indent outer true).token =
      .ok (inBlock p (' ' :: more) (.blockEntry :: tokens) indent outer true) := by
  have hskip : (p.skipTo ('-' :: ' ' :: more)).skip 1 = p.skipTo (' ' :: more) :=
    Cursor.skip_one hp
  have hopens : (inBlock p ('-' :: ' ' :: more) tokens indent outer true).opensAt
      (p.skipTo ('-' :: ' ' :: more)).column = false := by
    refine decide_eq_false ?_
    show ¬ indent < _
    omega
  rw [token_blockEntry (Cursor.rest_skipTo hp)]
  unfold atBlockEntry
  dsimp only
  rw [show (inBlock p ('-' :: ' ' :: more) tokens indent outer true).cursor.column =
    (p.skipTo ('-' :: ' ' :: more)).column from rfl, hopens]
  show Except.ok (push { inBlock p ('-' :: ' ' :: more) tokens indent outer true with
    cursor := (p.skipTo ('-' :: ' ' :: more)).skip 1 } .blockEntry) = _
  rw [hskip]
  rfl

theorem leads_item (hp : '-' :: ' ' :: more <:+ p.rest)
    (hcolumn : indent = (p.skipTo ('-' :: ' ' :: more)).column)
    (hready : (inBlock p (' ' :: more) (.blockEntry :: tokens) indent outer true).ready = .ok c) :
    Leads (inBlock p ('-' :: ' ' :: more) tokens indent outer true) c := by
  refine leads_of_token (token_item hp hcolumn) hready (by simp [inBlock]) ?_
  exact Cursor.length_rest_lt hp

theorem token_documentEnd (hp : [] <:+ p.rest) :
    (inBlock p [] tokens 0 [-1] true).token =
      .ok (inBlock p [] (.streamEnd :: .blockEnd :: tokens) (-1) [] true) := by
  have hend : (inBlock p [] tokens 0 [-1] true).unwind (-1) =
      (inBlock p [] (.blockEnd :: tokens) (-1) [] true).unwind (-1) :=
    unwind_inBlock_of_lt (by decide)
  have hroot : (inBlock p [] (.blockEnd :: tokens) (-1) [] true).unwind (-1) =
      inBlock p [] (.blockEnd :: tokens) (-1) [] true :=
    unwind_of_le (Int.le_refl _)
  rw [hroot] at hend
  rw [token_end (Cursor.rest_skipTo hp)]
  unfold atEnd
  rw [hend]
  rfl

end Scanner
end Yaml
end NodeSettings
