import NodeSettings.Binary64.Basic
import NodeSettings.Duration.Basic
import NodeSettings.Setting.Name

/-!
This module contains the values that a document can hold and that a setting can be given: what they
are, and when two of them are the same or equal.
-/

namespace NodeSettings

structure CivilDate where
  year : Nat
  month : Nat
  day : Nat
deriving DecidableEq

/-- A time of day on a day, with its distance from universal time in seconds where that is known. -/
structure Moment where
  date : CivilDate
  hour : Nat
  minute : Nat
  second : Nat
  micros : Nat
  offset : Option Int
deriving DecidableEq

/--
An object of which only what it shows is known; a copy of it is an object of its own. It does not
pass for a key: its plain form is not the name of a section or a setting.
-/
structure Foreign where
  mark : Nat
  copy : Nat
  typeName : String
  literal : String
  plain : Text
  anonymous : plain ∉ names
deriving DecidableEq

inductive Value where
  | null
  | boolean (b : Bool)
  | integer (n : Int)
  | float (x : Binary64)
  /-- A float that is no number; such floats are told apart by their marks. -/
  | undefined (mark : Nat)
  | text (t : Text)
  | duration (d : Duration)
  | foreign (o : Foreign)
  | list (items : List Value)
  | tuple (items : List Value)
  | map (entries : List (Value × Value))
  | bytes (octets : List Nat)
  | date (d : CivilDate)
  | moment (m : Moment)
  | set (items : List Value)

namespace Value

mutual

/-- Two values are the same if they have the same type and the same content. -/
def same : Value → Value → Bool
  | null, null => true
  | boolean b, boolean c => b == c
  | integer m, integer n => m == n
  | float x, float y => x == y
  | undefined _, undefined _ => true
  | text s, text t => s == t
  | duration d, duration e => d == e
  | foreign _, foreign _ => true
  | list xs, list ys => sameList xs ys
  | tuple xs, tuple ys => sameList xs ys
  | map xs, map ys => sameEntries xs ys
  | bytes xs, bytes ys => xs == ys
  | date d, date e => d == e
  | moment m, moment n => m == n
  | set xs, set ys => sameList xs ys
  | _, _ => false

def sameList : List Value → List Value → Bool
  | [], [] => true
  | x :: xs, y :: ys => same x y && sameList xs ys
  | _, _ => false

def sameEntries : List (Value × Value) → List (Value × Value) → Bool
  | [], [] => true
  | (k, x) :: xs, (l, y) :: ys => same k l && same x y && sameEntries xs ys
  | _, _ => false

end

def asInteger? : Value → Option Int
  | boolean b => some (if b then 1 else 0)
  | integer n => some n
  | float x =>
    match x.units? with
    | some n =>
      if n % Binary64.unitsPerOne = 0 then some (n / Binary64.unitsPerOne) else none
    | none => none
  | _ => none

def CivilDate.ordinal (d : CivilDate) : Int :=
  let y := d.year - 1
  let leap := d.year % 4 = 0 && (d.year % 100 != 0 || d.year % 400 = 0)
  let before := [0, 31, 59, 90, 120, 151, 181, 212, 243, 273, 304, 334].getD (d.month - 1) 0
  ((365 * y + y / 4 - y / 100 + y / 400 + before : Nat) : Int)
    + (if leap && 2 < d.month then 1 else 0) + d.day

def Moment.instant (m : Moment) : Int :=
  (((CivilDate.ordinal m.date * 24 + m.hour) * 60 + m.minute) * 60 + m.second - m.offset.getD 0)
    * 1000000 + m.micros

/--
Equality of values without parts: numbers are equal across their types, an undefined float and an
object equal only themselves, and a moment with a known distance from universal time equals none
without.
-/
def equalLeaves : Value → Value → Bool
  | null, null => true
  | text s, text t => s == t
  | duration d, duration e => d == e
  | bytes xs, bytes ys => xs == ys
  | date d, date e => d == e
  | undefined i, undefined j => i == j
  | foreign o, foreign p => o.mark == p.mark && o.copy == p.copy
  | moment m, moment n =>
    m.offset.isSome == n.offset.isSome && Moment.instant m == Moment.instant n
  | float x, float y => Binary64.compare? x y == some .eq
  | v, w =>
    match v.asInteger?, w.asInteger? with
    | some m, some n => m == n
    | _, _ => false

mutual

/-- Two values are equal: numbers by value, mappings and sets whatever their order. -/
def equal : Value → Value → Bool
  | list xs, w =>
    match w with
    | list ys => equalList xs ys
    | _ => false
  | tuple xs, w =>
    match w with
    | tuple ys => equalList xs ys
    | _ => false
  | map xs, w =>
    match w with
    | map ys => xs.length == ys.length && equalEntries xs ys
    | _ => false
  | set xs, w =>
    match w with
    | set ys => xs.length == ys.length && subset xs ys
    | _ => false
  | v, w => equalLeaves v w

def equalList : List Value → List Value → Bool
  | [], ys => ys.isEmpty
  | x :: xs, ys =>
    match ys with
    | [] => false
    | y :: ys => equal x y && equalList xs ys

def equalEntries : List (Value × Value) → List (Value × Value) → Bool
  | [], _ => true
  | (k, x) :: xs, ys =>
    (match ys.find? fun (l, _) => equalLeaves k l with
      | some (_, y) => equal x y
      | none => false) && equalEntries xs ys

def subset : List Value → List Value → Bool
  | [], _ => true
  | x :: xs, ys => ys.any (equalLeaves x ·) && subset xs ys

end

/-- Two values by themselves are equal: an undefined float does not even equal itself. -/
def equalAlone : Value → Value → Bool
  | undefined _, undefined _ => false
  | v, w => v.equal w

def insert {α : Type} (entries : List (Value × α)) (key : Value) (value : α) : List (Value × α) :=
  match entries with
  | [] => [(key, value)]
  | (k, v) :: rest =>
    if equalLeaves k key then (k, value) :: rest else (k, v) :: insert rest key value

/-- A mapping built entry by entry: a repeated key keeps its first place and its last value. -/
def ofEntries (entries : List (Value × Value)) : Value :=
  map (entries.foldl (fun built (key, value) => insert built key value) [])

mutual

/-- A copy of a value: the objects in it are objects of their own, and all else is the same. -/
def copied (copy : Nat) : Value → Value
  | foreign o => foreign { o with copy }
  | list xs => list (copiedList copy xs)
  | tuple xs => tuple (copiedList copy xs)
  | map xs => map (copiedEntries copy xs)
  | set xs => set (copiedList copy xs)
  | v => v

def copiedList (copy : Nat) : List Value → List Value
  | [] => []
  | x :: xs => copied copy x :: copiedList copy xs

def copiedEntries (copy : Nat) : List (Value × Value) → List (Value × Value)
  | [] => []
  | (k, x) :: xs => (copied copy k, copied copy x) :: copiedEntries copy xs

end

mutual

def unhashable? : Value → Option String
  | list _ => some "list"
  | map _ => some "dict"
  | set _ => some "set"
  | tuple xs => unhashableItem? xs
  | _ => none

def unhashableItem? : List Value → Option String
  | [] => none
  | x :: xs => (unhashable? x).or (unhashableItem? xs)

end

def ofFloat (mark : Nat) : Binary64 → Value
  | .nan => undefined mark
  | x => float x

def float? : Value → Option Binary64
  | float x => some x
  | undefined _ => some .nan
  | _ => none

def isTruthy : Value → Bool
  | null => false
  | boolean b => b
  | integer n => n != 0
  | float x => !x.isZero
  | text t => !t.isEmpty
  | duration d => d.micros != 0
  | list xs | tuple xs | set xs => !xs.isEmpty
  | map xs => !xs.isEmpty
  | bytes xs => !xs.isEmpty
  | undefined _ | foreign _ | date _ | moment _ => true

def typeName : Value → String
  | null => "NoneType"
  | boolean _ => "bool"
  | integer _ => "int"
  | float _ | undefined _ => "float"
  | text _ => "str"
  | duration _ => "datetime.timedelta"
  | foreign o => o.typeName
  | list _ => "list"
  | tuple _ => "tuple"
  | map _ => "dict"
  | bytes _ => "bytes"
  | date _ => "datetime.date"
  | moment _ => "datetime.datetime"
  | set _ => "set"

end Value
end NodeSettings
