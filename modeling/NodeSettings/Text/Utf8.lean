import NodeSettings.Text.Digit

/-!
This module contains the faults of bytes that are no UTF-8: where the first of them lies and what is
wrong there.
-/

namespace NodeSettings
namespace Text

inductive Utf8Cause where
  | start
  /-- The character does not go on with the byte behind the ones of the fault. -/
  | continuation
  | unfinished
deriving DecidableEq

structure Utf8Fault where
  cause : Utf8Cause
  position : Nat
  bytes : List Nat
deriving DecidableEq

namespace Utf8Fault

def message (f : Utf8Fault) : String :=
  let cause := match f.cause with
    | .start => "invalid start byte"
    | .continuation => "invalid continuation byte"
    | .unfinished => "unexpected end of data"
  let place := match f.bytes with
    | [b] => "byte 0x" ++ String.ofList (hexadecimal 2 b) ++ " in position " ++ decimal f.position
    | bytes =>
      "bytes in position " ++ decimal f.position ++ "-"
        ++ decimal (f.position + bytes.length - 1)
  "'utf-8' codec can't decode " ++ place ++ ": " ++ cause

end Utf8Fault

def secondBytes (first : Nat) : Nat × Nat :=
  if first = 0xE0 then (0xA0, 0xBF)
  else if first = 0xED then (0x80, 0x9F)
  else if first = 0xF0 then (0x90, 0xBF)
  else if first = 0xF4 then (0x80, 0x8F)
  else (0x80, 0xBF)

def bytesBehind? (first : Nat) : Option Nat :=
  if first < 0x80 then some 0
  else if first < 0xC2 then none
  else if first < 0xE0 then some 1
  else if first < 0xF0 then some 2
  else if first < 0xF5 then some 3
  else none

def readBytes (seen : List Nat) (range : Nat × Nat) : Nat → List Nat →
    Except (Utf8Cause × List Nat) (List Nat)
  | 0, bytes => return bytes
  | _ + 1, [] => throw (.unfinished, seen.reverse)
  | count + 1, b :: bytes =>
    if range.1 ≤ b && b ≤ range.2 then readBytes (b :: seen) (0x80, 0xBF) count bytes
    else throw (.continuation, seen.reverse)

def utf8FaultFrom? : Nat → Nat → List Nat → Option Utf8Fault
  | 0, _, _ => none
  | _, _, [] => none
  | fuel + 1, position, b :: bytes =>
    match bytesBehind? b with
    | none => some ⟨.start, position, [b]⟩
    | some count =>
      match readBytes [b] (secondBytes b) count bytes with
      | .error (cause, seen) => some ⟨cause, position, seen⟩
      | .ok rest => utf8FaultFrom? fuel (position + count + 1) rest

def decodeUtf8 (content : ByteArray) : Except Utf8Fault String :=
  match String.fromUTF8? content with
  | some s => return s
  | none =>
    let bytes := content.toList.map UInt8.toNat
    throw ((utf8FaultFrom? bytes.length 0 bytes).getD ⟨.unfinished, bytes.length, []⟩)

end Text
end NodeSettings
