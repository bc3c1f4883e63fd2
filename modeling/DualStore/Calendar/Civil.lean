/-!
# Civil dates

Days counted from 1970-01-01 and dates of the Gregorian calendar, extended to all years. Years are
counted from March on inside a cycle of 400 years, so that the leap day is the last of its year.

* `Date`, `Date.isValid`: a date, and whether its month has that day;
* `Date.toDay`, `Date.ofDay`: the two directions;
* `Zone`: a fixed distance from universal time, less than a day.
-/

namespace DualStore.Calendar

structure Date where
  year : Int
  month : Int
  day : Int
  deriving DecidableEq, Repr

def isLeap (year : Int) : Bool := year % 4 = 0 && (year % 100 ≠ 0 || year % 400 = 0)

def daysInMonth (year month : Int) : Int :=
  if month = 2 then (if isLeap year then 29 else 28)
  else if month = 4 ∨ month = 6 ∨ month = 9 ∨ month = 11 then 30
  else 31

def Date.isValid (d : Date) : Bool :=
  1 ≤ d.month && d.month ≤ 12 && 1 ≤ d.day && d.day ≤ daysInMonth d.year d.month

/-- The number of days from 1970-01-01 to a date. -/
def Date.toDay (d : Date) : Int :=
  let year := if d.month ≤ 2 then d.year - 1 else d.year
  let month := if d.month ≤ 2 then d.month + 9 else d.month - 3
  let cycle := year / 400
  let ofCycle := year % 400
  let ofYear := (153 * month + 2) / 5 + d.day - 1
  cycle * 146097 + (ofCycle * 365 + ofCycle / 4 - ofCycle / 100 + ofYear) - 719468

/-- The date so many days after 1970-01-01. -/
def Date.ofDay (n : Int) : Date :=
  let cycle := (n + 719468) / 146097
  let inCycle := (n + 719468) % 146097
  let ofCycle := (inCycle - inCycle / 1460 + inCycle / 36524 - inCycle / 146096) / 365
  let ofYear := inCycle - (365 * ofCycle + ofCycle / 4 - ofCycle / 100)
  let month := (5 * ofYear + 2) / 153
  let day := ofYear - (153 * month + 2) / 5 + 1
  let month := if month < 10 then month + 3 else month - 9
  let year := ofCycle + cycle * 400
  ⟨if month ≤ 2 then year + 1 else year, month, day⟩

example : Date.toDay ⟨1970, 1, 1⟩ = 0 ∧ Date.toDay ⟨2000, 2, 29⟩ = 11016 := by decide

example : Date.ofDay 11016 = ⟨2000, 2, 29⟩ ∧ Date.ofDay (-1) = ⟨1969, 12, 31⟩ := by decide

/-- A fixed distance from universal time, in seconds to the east; less than a day. -/
structure Zone where
  seconds : Int
  within : -86400 < seconds ∧ seconds < 86400

def Zone.universal : Zone := ⟨0, by decide⟩

/-- The zone so many seconds to the east; universal time if that is a day or more. -/
def Zone.ofSeconds (seconds : Int) : Zone :=
  if h : -86400 < seconds ∧ seconds < 86400 then ⟨seconds, h⟩ else .universal

instance : Inhabited Zone := ⟨.universal⟩

end DualStore.Calendar
