import NodeSettings.Value.Basic

/-!
This module contains the calendar: which days there are, and the day and time of an instant.
-/

namespace NodeSettings

def daysInMonth (year month : Nat) : Nat :=
  if month = 2 then
    if year % 4 = 0 && (year % 100 != 0 || year % 400 = 0) then 29 else 28
  else if month = 4 || month = 6 || month = 9 || month = 11 then 30
  else 31

/--
The day that is a number of days after the first of March of the year 0. Years begin with March
here, so that the leap day is the last one.
-/
def CivilDate.ofDayNumber (n : Nat) : CivilDate :=
  let cycle := n / 146097
  let day := n % 146097
  let yearOfCycle := (day - day / 1460 + day / 36524 - day / 146096) / 365
  let dayOfYear := day - (365 * yearOfCycle + yearOfCycle / 4 - yearOfCycle / 100)
  let march := (5 * dayOfYear + 2) / 153
  let month := if march < 10 then march + 3 else march - 9
  let year := yearOfCycle + cycle * 400 + (if month ≤ 2 then 1 else 0)
  ⟨year, month, dayOfYear - (153 * march + 2) / 5 + 1⟩

def yearOfDay (n : Int) : Int :=
  (CivilDate.ofDayNumber (Int.fmod n 146097).toNat).year + 400 * Int.fdiv n 146097

/--
The moment in universal time that is a number of microseconds after the first of January 1970.
-/
def Moment.ofMicros (n : Int) : Moment :=
  let day := Int.fdiv n 86400000000
  let rest := (Int.fmod n 86400000000).toNat
  let seconds := rest / 1000000
  { date := .ofDayNumber (day + 719468).toNat
    hour := seconds / 3600
    minute := seconds / 60 % 60
    second := seconds % 60
    micros := rest % 1000000
    offset := some 0 }

end NodeSettings
