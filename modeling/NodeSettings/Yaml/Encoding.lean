import NodeSettings.Yaml.Character

/-!
This module contains the reading of the bytes of a document as characters. The encoding is UTF-8
unless a byte order mark of UTF-16 is in front.
-/

namespace NodeSettings
namespace Yaml

def units16? (bigEndian : Bool) : List UInt8 → Option (List Nat)
  | [] => some []
  | [_] => none
  | a :: b :: bytes =>
    let n := if bigEndian then a.toNat * 256 + b.toNat else b.toNat * 256 + a.toNat
    (units16? bigEndian bytes).map (n :: ·)

def ofUnits16? : List Nat → Option (List Char)
  | [] => some []
  | m :: n :: units =>
    if 0xD800 ≤ m && m ≤ 0xDBFF then
      if 0xDC00 ≤ n && n ≤ 0xDFFF then
        (ofUnits16? units).map
          (Char.ofNat (0x10000 + (m - 0xD800) * 0x400 + (n - 0xDC00)) :: ·)
      else none
    else if 0xDC00 ≤ m && m ≤ 0xDFFF then none
    else (ofUnits16? (n :: units)).map (Char.ofNat m :: ·)
  | [m] => if 0xD800 ≤ m && m ≤ 0xDFFF then none else some [Char.ofNat m]

def decode? (bytes : ByteArray) : Option (List Char) :=
  match bytes.toList with
  | 0xFF :: 0xFE :: _ => (units16? false bytes.toList).bind ofUnits16?
  | 0xFE :: 0xFF :: _ => (units16? true bytes.toList).bind ofUnits16?
  | _ => (String.fromUTF8? bytes).map String.toList

def characters? (bytes : ByteArray) : Option (List Char) :=
  (decode? bytes).filter (·.all isAllowed)

end Yaml
end NodeSettings
