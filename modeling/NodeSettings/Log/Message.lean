import NodeSettings.Log.Place

/-!
This module contains the messages of log records: templates in which `%` marks the places of
arguments. A message without arguments is left as it is.
-/

namespace NodeSettings
namespace Log

structure Arguments where
  values : List Value
  /-- The value with the names of places; where there is one, values may be left over. -/
  named : Option Value := none

namespace Arguments

def ofValue : Value → Arguments
  | .tuple values => ⟨values, none⟩
  | .list items => ⟨[.list items], some (.list items)⟩
  | .map entries => ⟨[.map entries], some (.map entries)⟩
  | .bytes octets => ⟨[.bytes octets], some (.bytes octets)⟩
  | v => ⟨[v], none⟩

/-- A single mapping with entries is taken as such, anything else as values. -/
def ofValues : List Value → Arguments
  | [.map (entry :: entries)] => ofValue (.map (entry :: entries))
  | values => ⟨values, none⟩

def next (a : Arguments) : Except MessageFault (Value × Arguments) :=
  match a.values with
  | [] => throw .tooFew
  | v :: values => return (v, { a with values })

/-- The value of a name is the only one left. -/
def select (a : Arguments) (name : Text) : Except MessageFault Arguments :=
  match a.named with
  | some (.map entries) =>
    match entries.find? fun (key, _) => key.equal (.text name) with
    | some (_, v) => return { a with values := [v] }
    | none => throw (.unknownName name)
  | _ => throw .nameInList

end Arguments

def readName : Nat → List CodePoint → Option (List CodePoint × List CodePoint)
  | _, [] => none
  | depth, p :: points =>
    if p = .char ')' && depth = 0 then some ([], points)
    else
      let depth := if p = .char '(' then depth + 1 else if p = .char ')' then depth - 1 else depth
      (readName depth points).map fun (name, rest) => (p :: name, rest)

def readSelection (a : Arguments) (points : List CodePoint) :
    Except MessageFault (Arguments × List CodePoint) :=
  match points with
  | .char '(' :: rest =>
    if a.named.isNone then throw .noNames
    else
      match readName 0 rest with
      | none => throw .unfinishedName
      | some (name, rest) => return (← a.select ⟨name⟩, rest)
  | points => return (a, points)

def readFlags (place : Place) : List CodePoint → Place × List CodePoint
  | .char c :: points =>
    match place.withFlag? c with
    | some place => readFlags place points
    | none => (place, .char c :: points)
  | points => (place, points)

def readDigits (points : List CodePoint) : List Char × List CodePoint :=
  match points with
  | .char c :: rest =>
    if c.isDigit then
      let (digits, rest) := readDigits rest
      (c :: digits, rest)
    else ([], points)
  | points => ([], points)

def maxWidth : Nat := 0x7FFFFFFFFFFFFFFF

def maxPrecision : Nat := 0x7FFFFFFF

def maxPlaces : Nat := maxPrecision - 3

def readAmount (limit : Nat) (huge beyond : MessageFault) (a : Arguments)
    (points : List CodePoint) :
    Except MessageFault (Option Int × Arguments × List CodePoint) :=
  match points with
  | .char '*' :: rest => do
    let (v, a) ← a.next
    let n ← match v with
      | .integer n => pure n
      | .boolean b => pure (if b then 1 else 0)
      | _ => throw .notAWidth
    if n < -(limit : Int) - 1 || limit < n then throw beyond
    return (some n, a, rest)
  | points =>
    match readDigits points with
    | ([], _) => return (none, a, points)
    | (digits, rest) =>
      let n := Text.decimalValue digits
      if limit < n then throw huge else return (some n, a, rest)

def readPlace (a : Arguments) (points : List CodePoint) :
    Except MessageFault (Place × Arguments × List CodePoint) := do
  let (place, points) := readFlags {} points
  let (width, a, points) ← readAmount maxWidth .hugeWidth .widthBeyond a points
  let place := { place with
    width := width.map Int.natAbs, toLeft := place.toLeft || width.any (· < 0) }
  let (place, a, points) ← match points with
    | .char '.' :: rest => do
      let (precision, a, points) ← readAmount maxPrecision .hugePrecision .precisionBeyond a rest
      pure ({ place with precision := some (precision.getD 0).toNat }, a, points)
    | points => pure (place, a, points)
  match points with
  | .char 'h' :: rest | .char 'l' :: rest | .char 'L' :: rest => return (place, a, rest)
  | points => return (place, a, points)

def wholeNumber (conversion : Char) : Value → Except MessageFault Int
  | .boolean b => return if b then 1 else 0
  | .integer n => return n
  | .float x =>
    match x with
    | .nan => throw (.notWhole false)
    | .infinity _ => throw (.notWhole true)
    | x => return Int.tdiv (x.units?.getD 0) Binary64.unitsPerOne
  | .undefined _ => throw (.notWhole false)
  | v => throw (.notANumber conversion v.typeName)

def floatNumber (v : Value) : Except MessageFault Binary64 :=
  match v.float?, v.asInteger? with
  | some x, _ => return x
  | none, some n =>
    match Binary64.ofInt n with
    | .infinity _ => throw .beyondFloats
    | x => return x
  | none, none => throw (.notAFloat v.typeName)

def character : Value → Except MessageFault CodePoint
  | .text ⟨[p]⟩ => return p
  | .text _ => throw .notACharacter
  | v =>
    match v.float?, v.asInteger? with
    | none, some n =>
      match if n < 0 then none else CodePoint.ofNat? n.toNat with
      | some p => return p
      | none => throw .beyondCharacters
    | _, _ => throw .notACharacter

def asciiLiteral (v : Value) : Except LiteralFault String := do
  let shown ← v.literal
  return String.ofList (shown.toList.flatMap fun c =>
    if c.toNat < 128 then [c]
    else if c.toNat ≤ 0xFF then '\\' :: 'x' :: Text.hexadecimal 2 c.toNat
    else if c.toNat ≤ 0xFFFF then '\\' :: 'u' :: Text.hexadecimal 4 c.toNat
    else '\\' :: 'U' :: Text.hexadecimal 8 c.toNat)

def inBase (place : Place) (base : Nat) (mark : List Char) (n : Int) :
    Except MessageFault (List Char) :=
  if place.precision.any (maxPlaces < ·) then throw .tooManyPlaces
  else
    return place.fillNumber (n < 0) (if place.marked then mark else [])
      (place.preciseDigits (Nat.toDigits base n.natAbs))

def convert (place : Place) (conversion : CodePoint) (index : Nat) (v : Value) :
    Except MessageFault (List CodePoint) := do
  let shown (t : Except LiteralFault Text) : Except MessageFault (List CodePoint) := do
    return place.fillText (← t.mapError .unshowable).points
  let written (cs : List Char) : List CodePoint := cs.map .char
  let integer (c : Char) (base : Nat) (mark : List Char) : Except MessageFault (List Char) := do
    match v with
    | .boolean _ | .integer _ => inBase place base mark (← wholeNumber c v)
    | v => throw (.notAnInteger c v.typeName)
  match conversion with
  | .char 's' => shown v.plain
  | .char 'r' => shown (return (← v.literal))
  | .char 'a' => shown (return (← asciiLiteral v))
  | .char 'c' => return { place with precision := none }.fillText [← character v]
  | .char 'o' => return written (← integer 'o' 8 ['0', 'o'])
  | .char 'x' => return written (← integer 'x' 16 ['0', 'x'])
  | .char 'X' => return written ((← integer 'X' 16 ['0', 'x']).map Char.toUpper)
  | .char c =>
    if c == 'd' || c == 'i' || c == 'u' then
      let n ← wholeNumber c v
      let _ ← (integerText n).mapError .unshowable
      return written (← inBase place 10 [] n)
    else if "eEfFgG".toList.contains c then
      let x ← floatNumber v
      let negative := x.isNegative && x != .nan
      return written (place.fillNumber negative [] (place.floatDigits c x))
    else throw (.unknownConversion conversion index)
  | .surrogate _ => throw (.unknownConversion conversion index)

def fill (length : Nat) (a : Arguments) : Nat → List CodePoint →
    Except MessageFault (List CodePoint)
  | _, [] => if a.values.isEmpty || a.named.isSome then return [] else throw .tooMany
  | 0, _ :: _ => throw .unfinished
  | fuel + 1, p :: points =>
    if p != .char '%' then do return p :: (← fill length a fuel points)
    else if points.head? == some (.char '%') then do
      return p :: (← fill length a fuel (points.drop 1))
    else do
      let (a, points) ← readSelection a points
      let (place, a, points) ← readPlace a points
      match points with
      | [] => throw .unfinished
      | conversion :: points =>
        let (v, a) ← a.next
        let shown ← convert place conversion (length - points.length - 1) v
        return shown ++ (← fill length a fuel points)

def message (template : Text) (arguments : Option Arguments) : Except MessageFault Text :=
  match arguments with
  | none => return template
  | some a => do
    let length := template.points.length
    return ⟨← fill length a length template.points⟩

end Log
end NodeSettings
