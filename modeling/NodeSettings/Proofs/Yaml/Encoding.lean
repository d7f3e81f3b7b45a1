import NodeSettings.Yaml.Encoding

/-!
This module contains the reading of characters from the bytes that encode them.
-/

namespace NodeSettings
namespace Yaml

def isWritten (c : Char) : Bool :=
  c == '\n' || (0x20 ≤ c.toNat && c.toNat ≤ 0x7E)

theorem isWritten_iff {c : Char} :
    isWritten c = true ↔ c = '\n' ∨ 0x20 ≤ c.toNat ∧ c.toNat ≤ 0x7E := by
  unfold isWritten
  rw [Bool.or_eq_true, beq_iff_eq, Bool.and_eq_true, decide_eq_true_eq, decide_eq_true_eq]

theorem head?_toList_loop (bytes : ByteArray) (i : Nat) (before : List UInt8) (b : UInt8) :
    (ByteArray.toList.loop bytes i (before ++ [b])).head? = some b := by
  generalize hall : before ++ [b] = all
  fun_induction ByteArray.toList.loop bytes i all generalizing before with
  | case1 i all h ih =>
    apply ih (bytes.get! i :: before)
    rw [← hall]
    rfl
  | case2 i all h =>
    rw [← hall]
    simp

theorem head?_toList {bytes : ByteArray} (h : 0 < bytes.size) :
    bytes.toList.head? = some (bytes.get! 0) := by
  rw [ByteArray.toList, ByteArray.toList.loop, if_pos h]
  apply head?_toList_loop bytes 1 []

theorem toUTF8_cons (c : Char) (cs : List Char) :
    (String.ofList (c :: cs)).toUTF8 = (String.utf8EncodeChar c).toByteArray ++ cs.utf8Encode := by
  rw [String.toUTF8_eq_toByteArray, String.toByteArray_ofList, List.utf8Encode_cons,
    List.utf8Encode_singleton]

theorem data_append (bytes more : ByteArray) : (bytes ++ more).data = bytes.data ++ more.data := by
  rw [← Array.toList_inj, ByteArray.toList_data_append, Array.toList_append]

theorem head?_toList_toUTF8 {c : Char} (cs : List Char) (h : c.toNat ≤ 0x7F) :
    (String.ofList (c :: cs)).toUTF8.toList.head? = some c.val.toUInt8 := by
  have hsize : c.utf8Size = 1 := by
    rw [Char.utf8Size_eq_one_iff, UInt32.le_iff_toNat_le]
    exact h
  have hdata : (String.ofList (c :: cs)).toUTF8.data = #[c.val.toUInt8] ++ cs.utf8Encode.data := by
    rw [toUTF8_cons, data_append, String.utf8EncodeChar_eq_singleton hsize]
    rfl
  have hsizePos : 0 < (#[c.val.toUInt8] ++ cs.utf8Encode.data).size := by
    rw [Array.size_append]
    exact Nat.add_pos_left Nat.one_pos _
  rw [head?_toList]
  . show some ((String.ofList (c :: cs)).toUTF8.data[0]!) = _
    rw [hdata, getElem!_pos _ 0 hsizePos, Array.getElem_append_left (by simp)]
    rfl
  . show 0 < (String.ofList (c :: cs)).toUTF8.data.size
    rw [hdata]
    exact hsizePos

theorem head_ne_of_isWritten {cs : List Char} (h : cs.all isWritten) {b : UInt8}
    (hb : (String.ofList cs).toUTF8.toList.head? = some b) : b ≠ 0xFF ∧ b ≠ 0xFE := by
  cases cs with
  | nil => simp at hb
  | cons c cs =>
    rw [List.all_cons, Bool.and_eq_true] at h
    have hascii : c.toNat ≤ 0x7F := by
      rcases isWritten_iff.mp h.1 with rfl | hc
      . decide
      . omega
    rw [head?_toList_toUTF8 cs hascii] at hb
    cases hb
    have hbyte : c.val.toUInt8.toNat = c.toNat := by
      rw [UInt32.toNat_toUInt8]
      apply Nat.mod_eq_of_lt
      show c.toNat < 256
      omega
    constructor
    . intro heq
      rw [heq] at hbyte
      have h255 : (0xFF : UInt8).toNat = 255 := rfl
      omega
    . intro heq
      rw [heq] at hbyte
      have h254 : (0xFE : UInt8).toNat = 254 := rfl
      omega

theorem decode?_toUTF8 {cs : List Char} (h : cs.all isWritten) :
    decode? (String.ofList cs).toUTF8 = some cs := by
  unfold decode?
  split
  -- No mark of another encoding stands in front.
  . next hbytes =>
    have hhead := head_ne_of_isWritten h (by rw [hbytes]; rfl)
    exact absurd rfl hhead.1
  . next hbytes =>
    have hhead := head_ne_of_isWritten h (by rw [hbytes]; rfl)
    exact absurd rfl hhead.2
  . have hvalid : (String.ofList cs).toUTF8.IsValidUTF8 := (String.ofList cs).isValidUTF8
    unfold String.fromUTF8?
    rw [dif_pos hvalid]
    show some (String.ofList cs).toList = some cs
    rw [String.toList_ofList]

theorem characters?_toUTF8 {cs : List Char} (h : cs.all isWritten) :
    characters? (String.ofList cs).toUTF8 = some cs := by
  unfold characters?
  rw [decode?_toUTF8 h, Option.filter_some, if_pos]
  rw [List.all_eq_true] at h ⊢
  intro c hc
  rcases isWritten_iff.mp (h c hc) with rfl | ⟨hlow, hhigh⟩
  . decide
  . simp [isAllowed, hlow, hhigh]

end Yaml
end NodeSettings
