import NodeSettings.Proofs.Except
import NodeSettings.Proofs.Text
import NodeSettings.Yaml.ScalarValue

/-!
This module contains that bytes are read back from the digits in base 64 that are written for them.
-/

namespace NodeSettings
namespace Yaml

variable {octets : List Nat} {a b c n : Nat}

theorem sextet?_sextet : ∀ n < 64, sextet? (sextet n) = some n := by
  decide +kernel

theorem sextet_ne_pad : ∀ n < 64, (sextet n == '=') = false := by
  decide +kernel

theorem decodeBase64_sextet (h : n < 64) (filled pads left : Nat) (cs : List Char) :
    decodeBase64 filled pads left (sextet n :: cs) =
      match filled with
      | 0 => decodeBase64 1 0 n cs
      | 1 => do return (left * 4 + n / 16) :: (← decodeBase64 2 0 (n % 16) cs)
      | 2 => do return (left * 16 + n / 4) :: (← decodeBase64 3 0 (n % 4) cs)
      | _ => do return (left * 64 + n) :: (← decodeBase64 0 0 0 cs) := by
  conv => lhs; unfold decodeBase64
  rw [sextet_ne_pad n h, sextet?_sextet n h]
  rfl

theorem decodeBase64_break (cs : List Char) :
    decodeBase64 0 0 0 ('\n' :: cs) = decodeBase64 0 0 0 cs := by
  conv => lhs; unfold decodeBase64
  rfl

theorem decodeBase64_two (ha : a < 256) (hb : b < 16) (cs : List Char) :
    decodeBase64 0 0 0 (sextet (a / 4) :: sextet (a % 4 * 16 + b) :: cs) =
      (do return a :: (← decodeBase64 2 0 b cs)) := by
  rw [decodeBase64_sextet (by omega), decodeBase64_sextet (by omega),
    show a / 4 * 4 + (a % 4 * 16 + b) / 16 = a by omega,
    show (a % 4 * 16 + b) % 16 = b by omega]
  rfl

theorem decodeBase64_three (ha : a < 256) (hb : b < 256) (hc : c < 4) (cs : List Char) :
    decodeBase64 0 0 0
        (sextet (a / 4) :: sextet (a % 4 * 16 + b / 16) :: sextet (b % 16 * 4 + c) :: cs) =
      (do return a :: b :: (← decodeBase64 3 0 c cs)) := by
  rw [decodeBase64_two ha (by omega), decodeBase64_sextet (by omega),
    show b / 16 * 16 + (b % 16 * 4 + c) / 4 = b by omega,
    show (b % 16 * 4 + c) % 4 = c by omega]
  simp

theorem decodeBase64_four (ha : a < 256) (hb : b < 256) (hc : c < 256) (cs : List Char) :
    decodeBase64 0 0 0 (sextet (a / 4) :: sextet (a % 4 * 16 + b / 16)
        :: sextet (b % 16 * 4 + c / 64) :: sextet (c % 64) :: cs) =
      (do return a :: b :: c :: (← decodeBase64 0 0 0 cs)) := by
  rw [decodeBase64_three ha hb (by omega), decodeBase64_sextet (by omega),
    show c / 64 * 64 + c % 64 = c by omega]
  simp

theorem decodeBase64_fullLine (hoctets : ∀ x ∈ octets, x < 256) (hfull : octets.length % 3 = 0)
    (cs : List Char) : decodeBase64 0 0 0 (encodeBase64 octets ++ '\n' :: cs) =
      (do return octets ++ (← decodeBase64 0 0 0 cs)) := by
  fun_induction encodeBase64 octets with
  | case1 =>
    rw [List.nil_append, decodeBase64_break]
    exact (bind_pure _).symm
  | case2 a => cases hfull
  | case3 a b => cases hfull
  | case4 a b c octets ih =>
    simp only [List.forall_mem_cons] at hoctets
    rcases hoctets with ⟨ha, hb, hc, hoctets⟩
    simp only [List.length_cons] at hfull
    rw [List.cons_append, List.cons_append, List.cons_append, List.cons_append,
      decodeBase64_four ha hb hc, ih hoctets (by omega)]
    simp

theorem decodeBase64_line (hoctets : ∀ x ∈ octets, x < 256) :
    decodeBase64 0 0 0 (encodeBase64 octets ++ ['\n']) = .ok octets := by
  fun_induction encodeBase64 octets with
  | case1 => rfl
  | case2 a =>
    have htwo := decodeBase64_two (hoctets a (.head _)) (b := 0) (by decide) ['=', '=', '\n']
    rw [Nat.add_zero] at htwo
    exact htwo
  | case3 a b =>
    have hthree := decodeBase64_three (hoctets a (.head _)) (hoctets b (.tail _ (.head _)))
      (c := 0) (by decide) ['=', '\n']
    rw [Nat.add_zero] at hthree
    exact hthree
  | case4 a b c octets ih =>
    simp only [List.forall_mem_cons] at hoctets
    rcases hoctets with ⟨ha, hb, hc, hoctets⟩
    rw [List.cons_append, List.cons_append, List.cons_append, List.cons_append,
      decodeBase64_four ha hb hc, ih hoctets]
    rfl

theorem decodeBase64_lines (hoctets : ∀ x ∈ octets, x < 256) :
    decodeBase64 0 0 0 ((base64Lines octets).flatMap (· ++ ['\n'])) = .ok octets := by
  fun_induction base64Lines octets with
  | case1 => rfl
  | case2 octet rest ih =>
    rw [List.flatMap_cons]
    have hline : ∀ x ∈ octet :: rest.take (lineOctets - 1), x < 256 := by
      intro x hx
      exact hoctets x (List.mem_of_mem_take (i := lineOctets) hx)
    by_cases hlong : rest.length < lineOctets - 1
    . rw [List.drop_of_length_le (Nat.le_of_lt hlong), List.take_of_length_le (Nat.le_of_lt hlong),
        base64Lines, List.flatMap_nil, List.append_nil]
      exact decodeBase64_line hoctets
    . have hfull : (octet :: rest.take (lineOctets - 1)).length % 3 = 0 := by
        rw [List.length_cons, List.length_take, Nat.min_eq_left (Nat.le_of_not_lt hlong)]
        rfl
      rw [List.append_assoc, List.singleton_append, decodeBase64_fullLine hline hfull,
        ih fun x hx => hoctets x (.tail _ (List.mem_of_mem_drop hx))]
      show Except.ok (octet :: rest.take (lineOctets - 1) ++ rest.drop (lineOctets - 1)) = _
      rw [List.cons_append, List.take_append_drop]

theorem toNat_sextet_lt (n : Nat) : (sextet n).toNat < 128 := by
  have hdigits : ∀ c ∈ sextets, c.toNat < 128 := by
    have hall : (sextets.all fun c => c.toNat < 128) = true := by decide +kernel
    simpa using hall
  rw [sextet, List.getD_eq_getElem?_getD]
  cases h : sextets[n]? with
  | none => decide
  | some c => exact hdigits c (List.mem_of_getElem? h)

theorem toNat_lt_of_mem_encodeBase64 : ∀ c ∈ encodeBase64 octets, c.toNat < 128 := by
  fun_induction encodeBase64 octets <;> simp_all [toNat_sextet_lt]

theorem toNat_lt_of_mem_base64Lines :
    ∀ line ∈ base64Lines octets, ∀ c ∈ line, c.toNat < 128 := by
  fun_induction base64Lines octets with
  | case1 => nofun
  | case2 octet rest ih =>
    intro line hline
    rcases List.mem_cons.mp hline with rfl | hline
    . exact toNat_lt_of_mem_encodeBase64
    . exact ih line hline

/-- The lines that are written for bytes are read back as these bytes. -/
theorem binaryValue_base64Lines (hoctets : ∀ x ∈ octets, x < 256) :
    binaryValue (.ofChars ((base64Lines octets).flatMap (· ++ ['\n']))) = .ok octets := by
  have hascii : (Text.ofChars ((base64Lines octets).flatMap (· ++ ['\n']))).points.all
      (·.toNat < 128) = true := by
    rw [Text.ofChars, List.all_map, List.all_eq_true]
    intro c hc
    rcases List.mem_flatMap.mp hc with ⟨line, hline, hc⟩
    rcases List.mem_append.mp hc with hc | hc
    . exact decide_eq_true (toNat_lt_of_mem_base64Lines line hline c hc)
    . cases List.mem_singleton.mp hc
      rfl
  rw [binaryValue, if_pos hascii, Text.chars_ofChars, decodeBase64_lines hoctets]

end Yaml
end NodeSettings
