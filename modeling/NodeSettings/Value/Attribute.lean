import NodeSettings.Failure

/-!
This module contains the attributes of values. There are values under some names of numbers and
durations, and nothing can be assigned to any of them.
-/

namespace NodeSettings
namespace Value

def numberAttribute? (n : Int) : String → Option Value
  | "real" | "numerator" => some (integer n)
  | "imag" => some (integer 0)
  | "denominator" => some (integer 1)
  | _ => none

def floatAttribute? (v : Value) : String → Option Value
  | "real" => some v
  | "imag" => some (float (.zero false))
  | _ => none

def durationAttribute? (d : Duration) : String → Option Value
  | "days" => some (integer d.wholeDays)
  | "seconds" => some (integer d.restSeconds)
  | "microseconds" => some (integer d.restMicros)
  | "min" => some (duration (.nearest Duration.minMicros))
  | "max" => some (duration (.nearest Duration.maxMicros))
  | "resolution" => some (duration (.nearest 1))
  | _ => none

def inner? (v : Value) (name : String) : Option Value :=
  match v with
  | boolean b => numberAttribute? (if b then 1 else 0) name
  | integer n => numberAttribute? n name
  | float _ | undefined _ => floatAttribute? v name
  | duration d => durationAttribute? d name
  | _ => none

def inner (v : Value) (name : String) : Except Failure Value :=
  match v.inner? name with
  | some w => return w
  | none => throw (.noAttribute v.typeName name)

def refusal (v : Value) (name : String) : Failure :=
  if (v.inner? name).isNone then .noAttribute v.typeName name
  else
    match v with
    | duration _ =>
      if ["days", "seconds", "microseconds"].contains name then .fixed
      else .readOnly v.typeName name
    | boolean _ => .computed (integer 0).typeName name
    | v => .computed v.typeName name

end Value
end NodeSettings
