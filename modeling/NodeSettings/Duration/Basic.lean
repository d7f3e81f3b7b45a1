/-!
This module contains durations: whole numbers of microseconds that fit into a day count of at most
nine digits.
-/

namespace NodeSettings

/-- A length of time of either sign, with a precision of one microsecond. -/
structure Duration where
  micros : Int
  inRange : -86399999913600000000 ≤ micros ∧ micros ≤ 86399999999999999999
deriving DecidableEq

namespace Duration

def minMicros : Int := -86399999913600000000

def maxMicros : Int := 86399999999999999999

@[ext]
theorem ext {d e : Duration} (h : d.micros = e.micros) : d = e := by
  cases d
  cases e
  simp_all

def ofMicros? (n : Int) : Option Duration :=
  if h : minMicros ≤ n ∧ n ≤ maxMicros then some ⟨n, h⟩ else none

theorem ofMicros?_micros (d : Duration) : ofMicros? d.micros = some d := by
  simp [ofMicros?, minMicros, maxMicros, d.inRange]

def zero : Duration :=
  ⟨0, by decide⟩

/-- The duration nearest to a number of microseconds: one out of range is cut off. -/
def nearest (n : Int) : Duration :=
  if low : n < minMicros then ⟨minMicros, by decide⟩
  else if high : maxMicros < n then ⟨maxMicros, by decide⟩
  else ⟨n, by unfold minMicros maxMicros at *; omega⟩

theorem nearest_micros (d : Duration) : nearest d.micros = d := by
  have h := d.inRange
  ext
  unfold nearest minMicros maxMicros
  split
  . omega
  . split
    . omega
    . rfl

def milliseconds (n : Nat) : Duration :=
  nearest (n * 1000)

def seconds (n : Nat) : Duration :=
  nearest (n * 1000000)

def minutes (n : Nat) : Duration :=
  nearest (n * 60000000)

def hours (n : Nat) : Duration :=
  nearest (n * 3600000000)

def days (n : Nat) : Duration :=
  nearest (n * 86400000000)

def daysOf (micros : Int) : Int :=
  Int.fdiv micros 86400000000

def wholeDays (d : Duration) : Int :=
  daysOf d.micros

def restSeconds (d : Duration) : Nat :=
  (Int.fmod d.micros 86400000000).toNat / 1000000

def restMicros (d : Duration) : Nat :=
  (Int.fmod d.micros 86400000000).toNat % 1000000

end Duration
end NodeSettings
