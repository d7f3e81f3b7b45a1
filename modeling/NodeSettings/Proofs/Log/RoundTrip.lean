import NodeSettings.Proofs.Log.Decode
import NodeSettings.Proofs.Log.Prune

/-!
This module contains which values JSON has a form for, and that such a value is read back from what
is written for it.
-/

namespace NodeSettings

namespace Value

variable {leaf key : Value → Prop} {v w : Value} {items : List Value}
  {entries : List (Value × Value)}

def keys (v : Value) : List Value :=
  v.nodes.flatMap fun
    | map entries => entries.map Prod.fst
    | _ => []

def IsMadeOf (leaf key : Value → Prop) (v : Value) : Prop :=
  (∀ x ∈ v.leaves, leaf x) ∧ ∀ x ∈ v.keys, key x

instance [DecidablePred leaf] [DecidablePred key] : Decidable (v.IsMadeOf leaf key) :=
  inferInstanceAs (Decidable (_ ∧ _))

theorem keys_of_isLeaf (h : v.isLeaf = true) : v.keys = [] := by
  rw [keys, nodes_of_isLeaf h]
  cases v with
  | map entries => cases h
  | _ => rfl

theorem keys_list (items : List Value) : (list items).keys = items.flatMap keys := by
  unfold keys
  rw [nodes, nodesOfItems_eq, List.flatMap_cons, List.flatMap_assoc]
  rfl

theorem keys_map (entries : List (Value × Value)) :
    (map entries).keys = entries.map Prod.fst ++ entries.flatMap fun entry => entry.2.keys := by
  unfold keys
  rw [nodes, nodesOfEntries_eq, List.flatMap_cons, List.flatMap_assoc]

theorem isMadeOf_iff_of_isLeaf (h : v.isLeaf = true) : v.IsMadeOf leaf key ↔ leaf v := by
  rw [IsMadeOf, leaves_of_isLeaf h, keys_of_isLeaf h, List.forall_mem_singleton]
  simp

theorem isMadeOf_list_iff :
    (list items).IsMadeOf leaf key ↔ ∀ x ∈ items, x.IsMadeOf leaf key := by
  rw [IsMadeOf, leaves_list, keys_list, List.forall_mem_flatMap, List.forall_mem_flatMap]
  exact forall₂_and.symm

theorem isMadeOf_map_iff :
    (map entries).IsMadeOf leaf key ↔
      ∀ entry ∈ entries, key entry.1 ∧ entry.2.IsMadeOf leaf key := by
  rw [IsMadeOf, leaves_map, keys_map, List.forall_mem_append, List.forall_mem_flatMap,
    List.forall_mem_flatMap, List.forall_mem_map, and_left_comm]
  simp only [IsMadeOf, forall₂_and]

theorem IsMadeOf.of_prune? (h : v.IsMadeOf leaf key) (hprune : v.prune? = some w) :
    w.IsMadeOf leaf key := by
  induction v using induction_on_entries generalizing w with
  | leaf v hleaf =>
    rw [prune?_of_isLeaf hleaf, Option.ite_none_left_eq_some, Option.some.injEq] at hprune
    rw [← hprune.2]
    exact h
  | list items ih =>
    rw [isMadeOf_list_iff] at h
    rcases prune?_list_eq_some_iff.mp hprune with ⟨-, rfl⟩
    rw [isMadeOf_list_iff]
    intro y hy
    rcases List.mem_filterMap.mp hy with ⟨x, hx, hy⟩
    exact ih x hx (h x hx) hy
  | map entries ih =>
    rw [isMadeOf_map_iff] at h
    rcases prune?_map_eq_some_iff.mp hprune with ⟨-, rfl⟩
    rw [isMadeOf_map_iff]
    intro kept hkept
    rcases List.mem_filterMap.mp hkept with ⟨entry, hentry, hkept⟩
    rcases pruneMember?_eq_some_iff.mp hkept with ⟨hkey, hvalue⟩
    rw [hkey]
    exact ⟨(h entry hentry).1, ih entry hentry (h entry hentry).2 hvalue⟩

def IsShort (n : Int) : Prop :=
  n.natAbs < Nat.pow 10 maxDigits

/-- There is a line for the leaf. -/
def IsLoggable : Value → Prop
  | null | boolean _ | float _ | undefined _ | text _ | duration _ | foreign _ => True
  | integer n => IsShort n
  | _ => False

/-- There is a name in JSON for the key. -/
def IsLoggableKey : Value → Prop
  | null | boolean _ | float _ | undefined _ | text _ => True
  | integer n => IsShort n
  | _ => False

/-- JSON has a form for the leaf that is read as the leaf. -/
def IsPortable : Value → Prop
  | null | boolean _ | integer _ => True
  | text t => t.IsWhole
  | _ => False

def IsPortableKey : Value → Prop
  | text t => t.IsWhole
  | _ => False

instance : DecidablePred IsLoggable
  | null | boolean _ | float _ | undefined _ | text _ | duration _ | foreign _ => isTrue trivial
  | integer n => inferInstanceAs (Decidable (n.natAbs < Nat.pow 10 maxDigits))
  | list _ | tuple _ | map _ | bytes _ | date _ | moment _ | set _ => isFalse id

instance : DecidablePred IsLoggableKey
  | null | boolean _ | float _ | undefined _ | text _ => isTrue trivial
  | integer n => inferInstanceAs (Decidable (n.natAbs < Nat.pow 10 maxDigits))
  | duration _ | foreign _ | list _ | tuple _ | map _ | bytes _ | date _ | moment _ | set _ =>
    isFalse id

instance : DecidablePred IsPortable
  | null | boolean _ | integer _ => isTrue trivial
  | text t => inferInstanceAs (Decidable t.IsWhole)
  | float _ | undefined _ | duration _ | foreign _ | list _ | tuple _ | map _ | bytes _ | date _
  | moment _ | set _ => isFalse id

instance : DecidablePred IsPortableKey
  | text t => inferInstanceAs (Decidable t.IsWhole)
  | null | boolean _ | integer _ | float _ | undefined _ | duration _ | foreign _ | list _
  | tuple _ | map _ | bytes _ | date _ | moment _ | set _ => isFalse id

end Value

namespace Json

open Value (IsMadeOf IsLoggable IsLoggableKey IsPortable IsPortableKey)

variable {v : Value} {cs rest : List Char}

theorem encodeItems_eq (items : List Value) : encodeItems items = items.mapM encode := by
  induction items with
  | nil => rfl
  | cons x xs ih => rw [encodeItems, ih, List.mapM_cons]

def encodeMember (entry : Value × Value) : Except EncodeFault (List Char) := do
  let key ← keyText entry.1
  let value ← encode entry.2
  return encodeText key ++ ':' :: value

theorem encodeEntries_eq (entries : List (Value × Value)) :
    encodeEntries entries = entries.mapM encodeMember := by
  induction entries with
  | nil => rfl
  | cons entry entries ih =>
    rw [encodeEntries, ih, List.mapM_cons, encodeMember]
    simp only [bind_assoc, pure_bind]

theorem integerText_of_isShort {n : Int} (h : Value.IsShort n) :
    integerText n = .ok (Text.integer n) := by
  rw [integerText, NodeSettings.integerText, if_neg (Nat.not_le.mpr h)]
  rfl

theorem eq_of_integerText {n : Int} {s : String} (h : integerText n = .ok s) :
    s = Text.integer n := by
  unfold integerText NodeSettings.integerText at h
  split at h
  . cases h
  . cases h
    rfl

theorem exists_keyText {key : Value} (h : IsLoggableKey key) : ∃ t, keyText key = .ok t := by
  cases key with
  | integer n => exact ⟨_, by rw [keyText, integerText_of_isShort h]; rfl⟩
  | null | boolean _ | float _ | undefined _ | text _ => exact ⟨_, rfl⟩
  | _ => cases h

theorem exists_encode (h : v.IsMadeOf IsLoggable IsLoggableKey) : ∃ cs, encode v = .ok cs := by
  induction v using Value.induction_on_entries with
  | leaf v hleaf =>
    rw [Value.isMadeOf_iff_of_isLeaf hleaf] at h
    cases v with
    | integer n => exact ⟨_, by rw [encode, integerText_of_isShort h]; rfl⟩
    | null | boolean _ | float _ | undefined _ | text _ | duration _ | foreign _ =>
      exact ⟨_, rfl⟩
    | _ => cases h
  | list items ih =>
    rw [Value.isMadeOf_list_iff] at h
    have hparts := Except.exists_mapM_eq_ok fun x hx => ih x hx (h x hx)
    rcases hparts with ⟨parts, hparts⟩
    exact ⟨_, by rw [encode, encodeItems_eq, hparts]; rfl⟩
  | map entries ih =>
    rw [Value.isMadeOf_map_iff] at h
    have hmember : ∀ entry ∈ entries, ∃ part, encodeMember entry = .ok part := by
      intro entry hentry
      rcases exists_keyText (h entry hentry).1 with ⟨key, hkey⟩
      rcases ih entry hentry (h entry hentry).2 with ⟨value, hvalue⟩
      exact ⟨_, by rw [encodeMember, hkey, hvalue]; rfl⟩
    rcases Except.exists_mapM_eq_ok hmember with ⟨parts, hparts⟩
    exact ⟨_, by rw [encode, encodeEntries_eq, hparts]; rfl⟩

/-- Characters are read as a value where the value ends, unless the limit is below their number. -/
def Reads (v : Value) (cs : List Char) : Prop :=
  ∀ limit rest, cs.length ≤ limit → EndsValue rest →
    readValue (limit + 1) (cs ++ rest) = some (v, rest)

def startsScalar (c : Char) : Bool :=
  !isSpace c && c != '"' && c != '[' && c != '\x7b'

theorem skipSpaces_cons {c : Char} (hc : isSpace c = false) (cs : List Char) :
    skipSpaces (c :: cs) = c :: cs :=
  List.dropWhile_cons_of_neg (by simp [hc])

theorem readValue_text (limit : Nat) (cs : List Char) :
    readValue (limit + 1) ('"' :: cs) = (readText cs).map fun (t, rest) => (.text t, rest) := by
  rw [readValue, skipSpaces_cons (by decide)]
  rfl

theorem readValue_list (limit : Nat) (cs : List Char) :
    readValue (limit + 1) ('[' :: cs) =
      match skipSpaces cs with
      | ']' :: rest => some (.list [], rest)
      | _ => (readItems limit cs).map fun (items, rest) => (.list items, rest) := by
  rw [readValue, skipSpaces_cons (by decide)]
  rfl

theorem readValue_map (limit : Nat) (cs : List Char) :
    readValue (limit + 1) ('\x7b' :: cs) =
      match skipSpaces cs with
      | '\x7d' :: rest => some (.map [], rest)
      | _ => (readMembers limit cs).map fun (entries, rest) => (.map entries, rest) := by
  rw [readValue, skipSpaces_cons (by decide)]
  rfl

theorem readValue_scalar {c : Char} (hc : startsScalar c = true) (limit : Nat) (cs : List Char) :
    readValue (limit + 1) (c :: cs) = readScalar (c :: cs) := by
  simp only [startsScalar, Bool.and_eq_true, Bool.not_eq_true', bne_iff_ne] at hc
  rcases hc with ⟨⟨⟨hspace, hquote⟩, hlist⟩, hmap⟩
  rw [readValue, skipSpaces_cons hspace]
  split
  . next h => exact absurd (List.cons.inj h).1 hquote
  . next h => exact absurd (List.cons.inj h).1 hlist
  . next h => exact absurd (List.cons.inj h).1 hmap
  . rfl

theorem reads_of_readScalar {c : Char} (hc : startsScalar c = true)
    (h : ∀ rest, EndsValue rest → readScalar (c :: cs ++ rest) = some (v, rest)) :
    Reads v (c :: cs) := by
  intro limit rest hlimit hrest
  have hread := h rest hrest
  rw [List.cons_append] at hread ⊢
  rw [readValue_scalar hc, hread]

theorem reads_integer (n : Int) : Reads (.integer n) (Text.integer n).toList := by
  have hscalar (rest : List Char) (hrest : EndsValue rest) := readScalar_integer n hrest
  have hdigit : ∀ d < 10, startsScalar (Nat.digitChar d) = true := by decide
  cases n with
  | ofNat n =>
    rw [Text.integer, Text.decimal, String.toList_ofList] at hscalar ⊢
    rcases Text.exists_digits_cons (show 1 < 10 by decide) n with ⟨d, ds, hds, hlt, -, -⟩
    rw [hds] at hscalar ⊢
    exact reads_of_readScalar (hdigit d (hlt d (.head _))) hscalar
  | negSucc n =>
    have hsign : "-".toList = ['-'] := rfl
    rw [Text.integer, String.toList_append, hsign] at hscalar ⊢
    exact reads_of_readScalar (by decide) hscalar

theorem readText_append {t : Text} (h : t.IsWhole) (rest : List Char) :
    ∃ more, encodeText t ++ rest = '"' :: more ∧ readText more = some (t, rest) := by
  refine ⟨_, ?_, readText_encodeText h rest⟩
  rw [encodeText, List.cons_append, List.cons_append, List.append_assoc, List.singleton_append]

theorem reads_text {t : Text} (h : t.IsWhole) : Reads (.text t) (encodeText t) := by
  intro limit rest hlimit hrest
  rcases readText_append h rest with ⟨more, hmore, hread⟩
  rw [hmore, readValue_text, hread]
  rfl

theorem endsValue_cons {c : Char} (hc : c = ',' ∨ c = ']' ∨ c = '\x7d') (rest : List Char) :
    EndsValue (c :: rest) := by
  intro d hd
  cases hd
  exact hc

theorem commaSeparated_cons_cons (part next : List Char) (parts : List (List Char)) :
    commaSeparated (part :: next :: parts) = part ++ ',' :: commaSeparated (next :: parts) := rfl

theorem readItems_commaSeparated {items : List Value} {parts : List (List Char)} {part : List Char}
    {limit : Nat} (hfirst : Reads v part) (h : List.Forall₂ Reads items parts)
    (hlimit : (commaSeparated (part :: parts)).length ≤ limit) (rest : List Char) :
    readItems (limit + 2) (commaSeparated (part :: parts) ++ ']' :: rest) =
      some (v :: items, rest) := by
  induction h generalizing v part limit with
  | nil =>
    rw [commaSeparated, readItems, hfirst limit _ hlimit (endsValue_cons (by decide) rest)]
    rfl
  | @cons w next items parts hnext hlater ih =>
    rw [commaSeparated_cons_cons, List.length_append, List.length_cons] at hlimit
    rcases Nat.exists_eq_add_of_le' (show 1 ≤ limit by omega) with ⟨limit, rfl⟩
    rw [commaSeparated_cons_cons, List.append_assoc, List.cons_append, readItems,
      hfirst (limit + 1) _ (by omega) (endsValue_cons (by decide) _)]
    show (readItems (limit + 2) _).map _ = _
    rw [ih hnext (by omega)]
    rfl

theorem readItems_eq_none (h : skipSpaces cs = ']' :: rest) (limit : Nat) :
    readItems (limit + 2) cs = none := by
  rw [readItems, readValue, h]
  rfl

theorem reads_list {items : List Value} {parts : List (List Char)}
    (h : List.Forall₂ Reads items parts) :
    Reads (.list items) ('[' :: commaSeparated parts ++ [']']) := by
  intro limit rest hlimit hrest
  rw [List.cons_append, List.length_cons, List.length_append, List.length_singleton] at hlimit
  rcases Nat.exists_eq_add_of_le' (show 2 ≤ limit by omega) with ⟨limit, rfl⟩
  rw [List.cons_append, List.cons_append, List.append_assoc, List.singleton_append, readValue_list]
  cases h with
  | nil => rfl
  | @cons x part items parts hfirst hlater =>
    have hinner : (commaSeparated (part :: parts)).length ≤ limit := by omega
    have hitems := readItems_commaSeparated hfirst hlater hinner rest
    split
    . next hend =>
      rw [readItems_eq_none hend] at hitems
      cases hitems
    . rw [hitems]
      rfl

def ReadsMember (entry : Value × Value) (part : List Char) : Prop :=
  ∃ t cs, entry.1 = .text t ∧ t.IsWhole ∧ Reads entry.2 cs ∧ part = encodeText t ++ ':' :: cs

theorem readMembers_eq {t : Text} {more behind : List Char} {limit : Nat}
    (hkey : readText more = some (t, ':' :: behind))
    (hvalue : readValue limit behind = some (v, rest)) :
    readMembers (limit + 1) ('"' :: more) =
      match skipSpaces rest with
      | '\x7d' :: rest => some ([(.text t, v)], rest)
      | ',' :: rest =>
        (readMembers limit rest).map fun (entries, rest) => ((.text t, v) :: entries, rest)
      | _ => none := by
  rw [readMembers, skipSpaces_cons (by decide)]
  show (readText more >>= _) = _
  rw [hkey]
  show (readValue limit behind >>= _) = _
  rw [hvalue]
  rfl

theorem readMembers_append {entry : Value × Value} {part : List Char} {limit : Nat}
    (h : ReadsMember entry part) (hlimit : part.length ≤ limit + 1) (hrest : EndsValue rest) :
    readMembers (limit + 2) (part ++ rest) =
      match skipSpaces rest with
      | '\x7d' :: rest => some ([entry], rest)
      | ',' :: rest =>
        (readMembers (limit + 1) rest).map fun (entries, rest) => (entry :: entries, rest)
      | _ => none := by
  rcases entry with ⟨k, x⟩
  rcases h with ⟨t, cs, hkey, ht, hvalue, rfl⟩
  rw [List.length_append, List.length_cons] at hlimit
  rcases readText_append ht (':' :: (cs ++ rest)) with ⟨more, hmore, hread⟩
  dsimp only at hkey
  rw [List.append_assoc, List.cons_append, hmore, hkey,
    readMembers_eq hread (hvalue limit rest (by omega) hrest)]

theorem readMembers_commaSeparated {entry : Value × Value} {entries : List (Value × Value)}
    {parts : List (List Char)} {part : List Char} {limit : Nat} (hfirst : ReadsMember entry part)
    (h : List.Forall₂ ReadsMember entries parts)
    (hlimit : (commaSeparated (part :: parts)).length ≤ limit) (rest : List Char) :
    readMembers (limit + 2) (commaSeparated (part :: parts) ++ '\x7d' :: rest) =
      some (entry :: entries, rest) := by
  induction h generalizing entry part limit with
  | nil =>
    rw [commaSeparated] at hlimit ⊢
    rw [readMembers_append hfirst (by omega) (endsValue_cons (by decide) rest)]
    rfl
  | @cons entry' next entries parts hnext hlater ih =>
    rw [commaSeparated_cons_cons, List.length_append, List.length_cons] at hlimit
    rcases Nat.exists_eq_add_of_le' (show 1 ≤ limit by omega) with ⟨limit, rfl⟩
    rw [commaSeparated_cons_cons, List.append_assoc, List.cons_append,
      readMembers_append hfirst (by omega) (endsValue_cons (by decide) _)]
    show (readMembers (limit + 2) _).map _ = _
    rw [ih hnext (by omega)]
    rfl

theorem readMembers_eq_none (h : skipSpaces cs = '\x7d' :: rest) (limit : Nat) :
    readMembers (limit + 1) cs = none := by
  rw [readMembers, h]
  rfl

theorem reads_map {entries : List (Value × Value)} {parts : List (List Char)}
    (h : List.Forall₂ ReadsMember entries parts) :
    Reads (.map entries) ('\x7b' :: commaSeparated parts ++ ['\x7d']) := by
  intro limit rest hlimit hrest
  rw [List.cons_append, List.length_cons, List.length_append, List.length_singleton] at hlimit
  rcases Nat.exists_eq_add_of_le' (show 2 ≤ limit by omega) with ⟨limit, rfl⟩
  rw [List.cons_append, List.cons_append, List.append_assoc, List.singleton_append, readValue_map]
  cases h with
  | nil => rfl
  | @cons entry part entries parts hfirst hlater =>
    have hinner : (commaSeparated (part :: parts)).length ≤ limit := by omega
    have hmembers := readMembers_commaSeparated hfirst hlater hinner rest
    split
    . next hend =>
      rw [readMembers_eq_none hend] at hmembers
      cases hmembers
    . rw [hmembers]
      rfl

theorem readsMember_of_encodeMember {entry : Value × Value} {part : List Char}
    (hkey : IsPortableKey entry.1) (hvalue : ∀ cs, encode entry.2 = .ok cs → Reads entry.2 cs)
    (h : encodeMember entry = .ok part) : ReadsMember entry part := by
  rcases entry with ⟨k, x⟩
  cases k with
  | text t =>
    rw [encodeMember, keyText, Except.bind_eq_ok_iff] at h
    rcases h with ⟨key, hkeyText, h⟩
    rw [Except.bind_eq_ok_iff] at h
    rcases h with ⟨cs, hcs, h⟩
    cases hkeyText
    cases h
    exact ⟨t, cs, rfl, hkey, hvalue cs hcs, rfl⟩
  | _ => cases hkey

theorem reads_encode (h : v.IsMadeOf IsPortable IsPortableKey) (hcs : encode v = .ok cs) :
    Reads v cs := by
  induction v using Value.induction_on_entries generalizing cs with
  | leaf v hleaf =>
    rw [Value.isMadeOf_iff_of_isLeaf hleaf] at h
    cases v with
    | null =>
      cases hcs
      exact reads_of_readScalar (by decide) fun _ _ => rfl
    | boolean b =>
      cases hcs
      cases b with
      | false => exact reads_of_readScalar (by decide) fun _ _ => rfl
      | true => exact reads_of_readScalar (by decide) fun _ _ => rfl
    | integer n =>
      rw [encode, Except.bind_eq_ok_iff] at hcs
      rcases hcs with ⟨s, hs, hcs⟩
      cases hcs
      rw [eq_of_integerText hs]
      exact reads_integer n
    | text t =>
      cases hcs
      exact reads_text h
    | _ => cases h
  | list items ih =>
    rw [Value.isMadeOf_list_iff] at h
    rw [encode, encodeItems_eq, Except.bind_eq_ok_iff] at hcs
    rcases hcs with ⟨parts, hparts, hcs⟩
    cases hcs
    apply reads_list
    apply Except.forall₂_of_mapM_eq_ok _ hparts
    intro x hx part hpart
    exact ih x hx (h x hx) hpart
  | map entries ih =>
    rw [Value.isMadeOf_map_iff] at h
    rw [encode, encodeEntries_eq, Except.bind_eq_ok_iff] at hcs
    rcases hcs with ⟨parts, hparts, hcs⟩
    cases hcs
    apply reads_map
    apply Except.forall₂_of_mapM_eq_ok _ hparts
    intro entry hentry part hpart
    apply readsMember_of_encodeMember (h entry hentry).1 _ hpart
    intro cs hcs
    exact ih entry hentry (h entry hentry).2 hcs

/-- What is written for a value that JSON has a form for is read as the value. -/
theorem decode_encode (h : v.IsMadeOf IsPortable IsPortableKey) (hcs : encode v = .ok cs) :
    decode (String.ofList cs) = some v := by
  have hread := reads_encode h hcs cs.length [] (Nat.le_refl _) nofun
  rw [List.append_nil] at hread
  rw [decode, String.toList_ofList, hread]
  rfl

end Json
end NodeSettings
