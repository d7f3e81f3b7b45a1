import NodeSettings.Proofs.EnvironmentOverlay
import NodeSettings.Proofs.Text

/-!
This module contains what a text says about peers: between its commas stand the peers, in their
order, with blanks around them, and any number of pieces that are blank.
-/

namespace NodeSettings

namespace Text

variable {c : Char} {cs piece front back : List Char} {pieces : List (List Char)} {s peer : String}
  {peers : List String}

theorem splitCommas_cons (hc : c ≠ ',') (cs : List Char) :
    splitCommas (c :: cs) = (splitCommas cs).modifyHead (c :: ·) := by
  rw [splitCommas]
  . cases hcs : splitCommas cs with
    | nil => exact absurd hcs (splitCommas_ne_nil cs)
    | cons piece pieces => rfl
  . exact hc

theorem splitCommas_eq_splitOn (cs : List Char) : splitCommas cs = cs.splitOn ',' := by
  induction cs with
  | nil => rfl
  | cons c cs ih =>
    rw [List.splitOn_eq_splitOnP, List.splitOnP_cons_eq_if_modifyHead, ← List.splitOn_eq_splitOnP,
      ← ih]
    by_cases hc : c = ','
    . rw [hc]
      rfl
    . rw [if_neg (by simpa using hc), splitCommas_cons hc]

theorem comma_not_mem_of_mem_splitCommas (h : piece ∈ splitCommas cs) : ',' ∉ piece := by
  induction cs generalizing piece with
  | nil =>
    rw [List.mem_singleton.mp h]
    exact List.not_mem_nil
  | cons c cs ih =>
    by_cases hc : c = ','
    . rw [hc, splitCommas, List.mem_cons] at h
      rcases h with rfl | h
      . exact List.not_mem_nil
      . exact ih h
    . rw [splitCommas_cons hc] at h
      cases hcs : splitCommas cs with
      | nil => exact absurd hcs (splitCommas_ne_nil cs)
      | cons first rest =>
        rw [hcs] at h ih
        rw [List.modifyHead_cons, List.mem_cons] at h
        rcases h with rfl | h
        . rw [List.mem_cons, not_or]
          exact ⟨Ne.symm hc, ih (.head _)⟩
        . exact ih (.tail _ h)

structure IsPeer (peer : String) : Prop where
  ne_empty : peer.toList ≠ []
  no_comma : ',' ∉ peer.toList
  head : ∀ c ∈ peer.toList.head?, isBlank c = false
  last : ∀ c ∈ peer.toList.getLast?, isBlank c = false

/-- Pieces of a text are peers with blanks around them; blank pieces can stand anywhere. -/
inductive Holds : List (List Char) → List String → Prop where
  | done : Holds [] []
  | blank {piece : List Char} {pieces : List (List Char)} {peers : List String}
    (h : ∀ c ∈ piece, isBlank c = true) (later : Holds pieces peers) :
    Holds (piece :: pieces) peers
  | peer {front back : List Char} {peer : String} {pieces : List (List Char)} {peers : List String}
    (h : IsPeer peer) (hfront : ∀ c ∈ front, isBlank c = true)
    (hback : ∀ c ∈ back, isBlank c = true) (later : Holds pieces peers) :
    Holds ((front ++ (peer.toList ++ back)) :: pieces) (peer :: peers)

/-- A text is made of such pieces, with commas between them. -/
def Lists (s : String) (peers : List String) : Prop :=
  ∃ pieces, s.toList = [','].intercalate pieces ∧ Holds pieces peers

theorem IsPeer.strip_eq (h : IsPeer peer) : strip peer = peer := by
  have hstrip : stripChars ([] ++ (peer.toList ++ [])) = peer.toList :=
    stripChars_append nofun nofun h.head h.last
  rw [List.nil_append, List.append_nil] at hstrip
  rw [strip, hstrip, String.ofList_toList]

theorem stripChars_of_blank (h : ∀ c ∈ piece, isBlank c = true) : stripChars piece = [] := by
  have hstrip : stripChars (piece ++ ([] ++ [])) = [] := stripChars_append h nofun nofun nofun
  rwa [List.append_nil, List.append_nil] at hstrip

theorem comma_not_mem_of_blank (h : ∀ c ∈ piece, isBlank c = true) : ',' ∉ piece := by
  intro hmem
  cases h ',' hmem

theorem Holds.comma_not_mem (h : Holds pieces peers) : ∀ piece ∈ pieces, ',' ∉ piece := by
  induction h with
  | done => nofun
  | blank hblank later ih => exact List.forall_mem_cons.mpr ⟨comma_not_mem_of_blank hblank, ih⟩
  | peer hpeer hfront hback later ih =>
    rw [List.forall_mem_cons, List.mem_append, List.mem_append, not_or, not_or]
    exact ⟨⟨comma_not_mem_of_blank hfront, hpeer.no_comma, comma_not_mem_of_blank hback⟩, ih⟩

def entriesOf (pieces : List (List Char)) : List String :=
  (pieces.map stripChars |>.filter (!·.isEmpty)).map String.ofList

theorem Holds.entriesOf_eq (h : Holds pieces peers) : entriesOf pieces = peers := by
  unfold entriesOf
  induction h with
  | done => rfl
  | blank hblank later ih =>
    rw [List.map_cons, stripChars_of_blank hblank, List.filter_cons_of_neg (by simp), ih]
  | @peer front back peer pieces peers hpeer hfront hback later ih =>
    rw [List.map_cons, stripChars_append hfront hback hpeer.head hpeer.last,
      List.filter_cons_of_pos (by simpa using hpeer.ne_empty), List.map_cons, ih,
      String.ofList_toList]

theorem holds_entriesOf (h : ∀ piece ∈ pieces, ',' ∉ piece) : Holds pieces (entriesOf pieces) := by
  unfold entriesOf
  induction pieces with
  | nil => exact .done
  | cons piece pieces ih =>
    rw [List.forall_mem_cons] at h
    have hlater := ih h.2
    rcases exists_core isBlank piece with ⟨front, core, back, rfl, hfront, hback, hhead, hlast⟩
    rw [List.map_cons, stripChars_append hfront hback hhead hlast]
    by_cases hcore : core = []
    . subst hcore
      rw [List.filter_cons_of_neg (by simp)]
      apply Holds.blank _ hlater
      rw [List.nil_append, List.forall_mem_append]
      exact ⟨hfront, hback⟩
    . rw [List.filter_cons_of_pos (by simpa using hcore), List.map_cons]
      have hcomma := h.1
      rw [List.mem_append, List.mem_append, not_or, not_or] at hcomma
      have hpeer : IsPeer (String.ofList core) := by
        constructor
        . rwa [String.toList_ofList]
        . rw [String.toList_ofList]
          exact hcomma.2.1
        . rwa [String.toList_ofList]
        . rwa [String.toList_ofList]
      have hholds := Holds.peer hpeer hfront hback hlater
      rwa [String.toList_ofList] at hholds

theorem lists_iff : Lists s peers ↔ entries s = peers := by
  have hentries : entries s = entriesOf (s.toList.splitOn ',') := by
    rw [← splitCommas_eq_splitOn]
    rfl
  rw [hentries]
  constructor
  . rintro ⟨pieces, hs, h⟩
    rw [hs]
    by_cases hpieces : pieces = []
    . subst hpieces
      cases h
      rfl
    . rw [List.splitOn_intercalate ',' h.comma_not_mem hpieces, h.entriesOf_eq]
  . rintro rfl
    refine ⟨s.toList.splitOn ',', (List.intercalate_splitOn ',').symm, holds_entriesOf ?_⟩
    rw [← splitCommas_eq_splitOn]
    exact fun piece => comma_not_mem_of_mem_splitCommas

theorem Holds.isPeer (h : Holds pieces peers) : ∀ peer ∈ peers, IsPeer peer := by
  induction h with
  | done => nofun
  | blank hblank later ih => exact ih
  | peer hpeer hfront hback later ih => exact List.forall_mem_cons.mpr ⟨hpeer, ih⟩

end Text

namespace Environment

variable {env : Environment} {leader s : String} {c : Config} {peers : List String}

def peersValue (peers : List String) : Value :=
  .list (peers.map fun (peer : String) => .text peer)

theorem get_of_lists (hc : (Config.ofEnvironment env leader).1 = .ok c)
    (hs : env.lookup (variableName leader peersVariable) = some s) (h : Text.Lists s peers) :
    c.get .bootstrapPeers = peersValue peers := by
  rw [Text.lists_iff] at h
  rw [get_of_peers hc, value?, hs]
  by_cases hempty : s = ""
  . -- An empty variable counts as none, and there are no peers by default.
    subst hempty
    cases h
    rfl
  . rw [Option.filter_some_pos (by simpa using hempty), ← h]
    rfl

/--
The peers of an environment are those that its variable lists: all of them, in their order, however
they are written. Any text lists some peers, and none of them has a comma or blanks around it.
-/
theorem ofEnvironment_lists_peers (env : Environment) (leader : String) (c : Config)
    (hc : (Config.ofEnvironment env leader).1 = .ok c) (s : String)
    (hs : env.lookup (leader ++ "_BOOTSTRAP_PEERS") = some s) :
    (∀ peers, Text.Lists s peers → c.get .bootstrapPeers = peersValue peers)
      ∧ ∃ peers, Text.Lists s peers ∧ c.get .bootstrapPeers = peersValue peers
        ∧ ∀ peer ∈ peers, peer ≠ "" ∧ ',' ∉ peer.toList ∧ Text.strip peer = peer := by
  have hname : variableName leader peersVariable = leader ++ "_BOOTSTRAP_PEERS" := by
    rw [variableName, String.append_assoc]
    rfl
  rw [← hname] at hs
  have hlists : Text.Lists s (Text.entries s) := Text.lists_iff.mpr rfl
  have hget := get_of_lists hc hs hlists
  refine ⟨fun peers h => get_of_lists hc hs h, Text.entries s, hlists, hget, ?_⟩
  intro peer hpeer
  rcases hlists with ⟨pieces, -, hholds⟩
  have h := hholds.isPeer peer hpeer
  refine ⟨?_, h.no_comma, h.strip_eq⟩
  rintro rfl
  exact h.ne_empty rfl

def scatteredPeers : Environment :=
  [("NODE_MAX_PEERS", "7"), ("NODE_BOOTSTRAP_PEERS", ",a:1 ,\u2003b c\n,, \t,a:1,"),
    ("OTHER_BOOTSTRAP_PEERS", "d")]

theorem ofEnvironment_lists_peers_scattered :
    ∃ c, (Config.ofEnvironment scatteredPeers "NODE").1 = .ok c
      ∧ c.get .bootstrapPeers = peersValue ["a:1", "b c", "a:1"] := by
  have hs : scatteredPeers.lookup ("NODE" ++ "_BOOTSTRAP_PEERS") =
      some ",a:1 ,\u2003b c\n,, \t,a:1," := rfl
  have hlists : Text.Lists ",a:1 ,\u2003b c\n,, \t,a:1," ["a:1", "b c", "a:1"] :=
    Text.lists_iff.mpr rfl
  cases hc : (Config.ofEnvironment scatteredPeers "NODE").1 with
  | error fault => cases hc
  | ok c => exact ⟨c, rfl, (ofEnvironment_lists_peers scatteredPeers "NODE" c hc _ hs).1 _ hlists⟩

end Environment
end NodeSettings
