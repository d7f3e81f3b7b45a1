import NodeSettings.Binary64.Basic
import NodeSettings.Text.Numeral

/-!
This module contains the decimal texts of binary floating point numbers: the number that a text
denotes, and the shortest text that reads back as a number.
-/

namespace NodeSettings
namespace Binary64

def spanDigits (cs : List Char) : List Char × List Char :=
  cs.span Text.isDecimal

def readExponent? : List Char → Option Int
  | [] => some 0
  | c :: cs =>
    if c != 'e' && c != 'E' then none
    else
      let (negative, cs) :=
        match cs with
        | '-' :: cs => (true, cs)
        | '+' :: cs => (false, cs)
        | cs => (false, cs)
      if cs.isEmpty || !cs.all Text.isDecimal then none
      else
        let n : Int := Text.decimalValue cs
        some (if negative then -n else n)

def readDecimal? (negative : Bool) (cs : List Char) : Option Binary64 :=
  let (whole, cs) := spanDigits cs
  let (fraction, cs) :=
    match cs with
    | '.' :: cs => spanDigits cs
    | cs => ([], cs)
  if whole.isEmpty && fraction.isEmpty then none
  else
    (readExponent? cs).map fun e =>
      ofDecimal negative (Text.decimalValue (whole ++ fraction)) (e - fraction.length)

def ofPoints? (points : List CodePoint) : Option Binary64 :=
  let (negative, cs) :=
    match Text.numeral points with
    | '-' :: cs => (true, cs)
    | '+' :: cs => (false, cs)
    | cs => (false, cs)
  let word := String.ofList (cs.map Char.toLower)
  if word = "inf" || word = "infinity" then some (infinity negative)
  else if word = "nan" then some nan
  else readDecimal? negative cs

def scale (num den : Nat) : Int :=
  if den ≤ num then (Nat.toDigits 10 (num / den)).length
  else
    let d := (Nat.toDigits 10 (den / num)).length
    if num * tenPow (d - 1) = den then 2 - (d : Int) else 1 - (d : Int)

/--
The reals that round to `significand * 2 ^ exponent` lie between two bounds, here in quarters of a
unit; below a power of two the lower one is nearer.
-/
def bounds (significand : Nat) (exponent : Int) : Nat × Nat :=
  let narrow := significand = twoPow 52 && exponent != minExponent
  (4 * significand - (if narrow then 1 else 2), 4 * significand + 2)

/--
The multiple `n` of `num / den` rounds to the number; the bounds belong to an even significand.
-/
def readsBack (significand : Nat) (exponent : Int) (n num den : Nat) : Bool :=
  let (low, high) := bounds significand exponent
  let value := 4 * n * num * twoPow (-exponent).toNat
  let unit := den * twoPow exponent.toNat
  if significand % 2 = 0 then low * unit ≤ value && value ≤ high * unit
  else low * unit < value && value < high * unit

/--
The digits and the scale of the shortest decimal that reads back as `significand * 2 ^ exponent`:
the first grid that has such a point wins, and of two such points the nearer one, or the even one.
-/
def shortest (significand : Nat) (exponent : Int) : Nat × Int :=
  let num := significand * twoPow exponent.toNat
  let den := twoPow (-exponent).toNat
  let top := scale num den
  go num den top 17 1
where
  go (num den : Nat) (top : Int) : Nat → Nat → Nat × Int
    | 0, _ => (num / den, 0)
    | fuel + 1, count =>
      let place := top - count
      let up := tenPow place.toNat
      let down := tenPow (-place).toNat
      let below := num * down / (den * up)
      let fits (n : Nat) : Bool := readsBack significand exponent n up down
      let middle := (2 * below + 1) * (den * up)
      let nearer := 2 * num * down < middle || (2 * num * down = middle && below % 2 = 0)
      if fits below && (nearer || !fits (below + 1)) then (below, place)
      else if fits (below + 1) then (below + 1, place)
      else go num den top fuel (count + 1)

def dropZeros (digits : List Char) : List Char :=
  (digits.reverse.dropWhile (· == '0')).reverse

/--
The shortest text of a number. Positional from `0.0001` up to below `10 ^ 16`, with a digit on both
sides of the point; otherwise with an exponent that has a sign and at least two digits.
-/
def text : Binary64 → String
  | nan => "nan"
  | infinity negative => if negative then "-inf" else "inf"
  | finite negative s e =>
    let body : List Char :=
      if s = 0 then ['0', '.', '0']
      else
        let (n, place) := shortest s e
        let all := Nat.toDigits 10 n
        let point : Int := all.length + place
        let digits := dropZeros all
        if -4 < point && point ≤ 0 then
          ['0', '.'] ++ List.replicate (-point).toNat '0' ++ digits
        else if 0 < point && point ≤ 16 then
          let whole := point.toNat
          let fraction := digits.drop whole
          digits.take whole ++ List.replicate (whole - digits.length) '0'
            ++ '.' :: (if fraction.isEmpty then ['0'] else fraction)
        else
          let power := point - 1
          digits.take 1 ++ (if digits.length ≤ 1 then [] else '.' :: digits.drop 1)
            ++ ['e', if power < 0 then '-' else '+'] ++ (Text.padded 2 power.natAbs).toList
    String.ofList (if negative then '-' :: body else body)

end Binary64
end NodeSettings
