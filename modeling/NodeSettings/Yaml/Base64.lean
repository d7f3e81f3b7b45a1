import NodeSettings.Yaml.Fault

/-!
This module contains the texts in base 64 that stand for bytes, and how they are read.
-/

namespace NodeSettings
namespace Yaml

def sextets : List Char :=
  "ABCDEFGHIJKLMNOPQRSTUVWXYZabcdefghijklmnopqrstuvwxyz0123456789+/".toList

def sextet (n : Nat) : Char :=
  sextets.getD n '='

def encodeBase64 : List Nat → List Char
  | [] => []
  | [a] => [sextet (a / 4), sextet (a % 4 * 16), '=', '=']
  | [a, b] => [sextet (a / 4), sextet (a % 4 * 16 + b / 16), sextet (b % 16 * 4), '=']
  | a :: b :: c :: octets =>
    sextet (a / 4) :: sextet (a % 4 * 16 + b / 16) :: sextet (b % 16 * 4 + c / 64)
      :: sextet (c % 64) :: encodeBase64 octets

def lineOctets : Nat := 57

def base64Lines (octets : List Nat) : List (List Char) :=
  match octets with
  | [] => []
  | octet :: rest =>
    encodeBase64 (octet :: rest.take (lineOctets - 1))
      :: base64Lines (rest.drop (lineOctets - 1))
termination_by octets.length
decreasing_by
  simp only [List.length_drop, List.length_cons]
  omega

def sextet? (c : Char) : Option Nat :=
  if 'A' ≤ c && c ≤ 'Z' then some (c.toNat - 65)
  else if 'a' ≤ c && c ≤ 'z' then some (c.toNat - 71)
  else if c.isDigit then some (c.toNat + 4)
  else if c == '+' then some 62
  else if c == '/' then some 63
  else none

/--
The bytes of a text in base 64, after `filled` digits of a group of four, with the bits that are
left over from them. Other characters are skipped, and padding that completes a group is the end.
-/
def decodeBase64 (filled pads left : Nat) : List Char → Except Fault (List Nat)
  | [] => if filled = 0 then return [] else throw .malformed
  | c :: cs =>
    if c == '=' then
      if 2 ≤ filled && 4 ≤ filled + pads + 1 then return []
      else decodeBase64 filled (if 2 ≤ filled then pads + 1 else pads) left cs
    else
      match sextet? c with
      | none => decodeBase64 filled pads left cs
      | some n =>
        match filled with
        | 0 => decodeBase64 1 0 n cs
        | 1 => do return (left * 4 + n / 16) :: (← decodeBase64 2 0 (n % 16) cs)
        | 2 => do return (left * 16 + n / 4) :: (← decodeBase64 3 0 (n % 4) cs)
        | _ => do return (left * 64 + n) :: (← decodeBase64 0 0 0 cs)

end Yaml
end NodeSettings
