/-!
This module contains the binary floating point numbers with 53 significant bits: their values, the
rounding of a ratio to the nearest of them, and the arithmetic that is exact up to that rounding.
-/

namespace NodeSettings

def twoPow (n : Nat) : Nat :=
  Nat.pow 2 n

def tenPow (n : Nat) : Nat :=
  Nat.pow 10 n

/-- The natural number nearest to `num / den`; a half goes to the even neighbour. -/
def roundHalfEven (num den : Nat) : Nat :=
  let q := num / den
  let r := num % den
  if 2 * r < den then q
  else if den < 2 * r then q + 1
  else if q % 2 = 0 then q else q + 1

/--
A binary floating point number. A finite one is `± significand * 2 ^ exponent`; the significand has
53 bits, or fewer at the least exponent -1074, so every number but zero has one form.
-/
inductive Binary64 where
  | nan
  | infinity (negative : Bool)
  | finite (negative : Bool) (significand : Nat) (exponent : Int)
deriving DecidableEq

namespace Binary64

def minExponent : Int := -1074

def maxExponent : Int := 971

def zero (negative : Bool) : Binary64 :=
  finite negative 0 minExponent

def inUnits (num den : Nat) (exponent : Int) : Nat :=
  roundHalfEven (num * twoPow (-exponent).toNat) (den * twoPow exponent.toNat)

/-- The exponent at which `num / den` has 53 bits in front of the point, or the least exponent. -/
def exponentOf (num den : Nat) : Int :=
  let e : Int := (Nat.log2 num : Int) - Nat.log2 den - 52
  let short := num * twoPow (-e).toNat < den * twoPow e.toNat * twoPow 52
  max minExponent (if short then e - 1 else e)

/--
The number nearest to `± num / den`; what rounds beyond the largest finite number is infinite.
-/
def ofRatio (negative : Bool) (num den : Nat) : Binary64 :=
  if num = 0 then zero negative
  else
    let e := exponentOf num den
    let s := inUnits num den e
    let (s, e) := if s = twoPow 53 then (twoPow 52, e + 1) else (s, e)
    if maxExponent < e then infinity negative else finite negative s e

def ofInt (n : Int) : Binary64 :=
  ofRatio (n < 0) n.natAbs 1

def ofDecimal (negative : Bool) (n : Nat) (exponent : Int) : Binary64 :=
  let magnitude := (Nat.log2 n : Int) / 4 + exponent
  if n = 0 then zero negative
  else if 400 < magnitude then infinity negative
  else if exponent < -400 - (Nat.log2 n : Int) then zero negative
  else ofRatio negative (n * tenPow exponent.toNat) (tenPow (-exponent).toNat)

def unitsPerOne : Nat :=
  twoPow 1074

def units? : Binary64 → Option Int
  | finite negative s e =>
    let n : Int := s * twoPow (e - minExponent).toNat
    some (if negative then -n else n)
  | _ => none

def isNegative : Binary64 → Bool
  | nan => false
  | infinity negative => negative
  | finite negative .. => negative

def isZero : Binary64 → Bool
  | finite _ s _ => s == 0
  | _ => false

def neg : Binary64 → Binary64
  | nan => nan
  | infinity negative => infinity !negative
  | finite negative s e => finite (!negative) s e

def mul (x y : Binary64) : Binary64 :=
  let negative := x.isNegative != y.isNegative
  match x, y with
  | nan, _ | _, nan => nan
  | infinity _, y => if y.isZero then nan else infinity negative
  | x, infinity _ => if x.isZero then nan else infinity negative
  | finite _ s e, finite _ t f =>
    ofRatio negative (s * t * twoPow (e + f).toNat) (twoPow (-(e + f)).toNat)

def add (x y : Binary64) : Binary64 :=
  match x, y with
  | nan, _ | _, nan => nan
  | infinity p, infinity q => if p = q then infinity p else nan
  | infinity p, _ | _, infinity p => infinity p
  | x@(finite p ..), y@(finite q ..) =>
    let n := x.units?.getD 0 + y.units?.getD 0
    let negative := if n = 0 then p && q else n < 0
    ofRatio negative n.natAbs unitsPerOne

/-- The order of two numbers; there is none if one of them is undefined. -/
def compare? : Binary64 → Binary64 → Option Ordering
  | nan, _ | _, nan => none
  | infinity p, infinity q => some (compare q.toNat p.toNat)
  | infinity p, _ => some (if p then .lt else .gt)
  | _, infinity q => some (if q then .gt else .lt)
  | x@(finite ..), y@(finite ..) => some (compare (x.units?.getD 0) (y.units?.getD 0))

def compareInt? : Binary64 → Int → Option Ordering
  | nan, _ => none
  | infinity p, _ => some (if p then .lt else .gt)
  | x@(finite ..), n => some (compare (x.units?.getD 0) (n * unitsPerOne))

def round? (x : Binary64) : Option Int :=
  x.units?.map fun n =>
    let r : Int := roundHalfEven n.natAbs unitsPerOne
    if n < 0 then -r else r

end Binary64
end NodeSettings
