import DualStore.Calendar.Civil
import DualStore.Decimal.Integer
import DualStore.Text.Blank

/-!
# Date texts

Instants in milliseconds since 1970-01-01 and their texts `year-month-day hour:minute:second` in a
zone. A text says nothing about fractions of a second.

* `write?`: the text of an instant, for years from -262143 to 262142 in universal time;
* `read?`: the instant of a text. A field may be preceded by blanks and may have fewer digits than
  it is written with; only a year with a sign may have more than four.
-/

namespace DualStore.Calendar

/-- The first and the last day of the calendar. -/
def firstDay : Int := Date.toDay ⟨-262143, 1, 1⟩

def lastDay : Int := Date.toDay ⟨262142, 12, 31⟩

def inCalendar (day : Int) : Bool := firstDay ≤ day && day ≤ lastDay

/-! ## Writing -/

def padded (width : Nat) (n : Nat) : List Char :=
  let ds := Decimal.digits n
  List.replicate (width - ds.length) '0' ++ ds

/-- A year: four digits, with a sign if it has more or is negative. -/
def yearChars (year : Int) : List Char :=
  if year < 0 then '-' :: padded 4 year.natAbs
  else if 9999 < year then '+' :: padded 4 year.natAbs
  else padded 4 year.natAbs

def secondChars (second : Int) : List Char :=
  let date := Date.ofDay (second / 86400)
  let ofDay := (second % 86400).toNat
  yearChars date.year ++ '-' :: padded 2 date.month.toNat ++ '-' :: padded 2 date.day.toNat
    ++ ' ' :: padded 2 (ofDay / 3600) ++ ':' :: padded 2 (ofDay / 60 % 60)
    ++ ':' :: padded 2 (ofDay % 60)

/-- The text of an instant in a zone; none for an instant outside the calendar. -/
def write? (ms : Int) (zone : Zone) : Option String :=
  let second := ms / 1000
  if inCalendar (second / 86400) then some (String.ofList (secondChars (second + zone.seconds)))
  else none

/-! ## Reading -/

/-- A number of at most so many digits at the front of a text, and what follows it. -/
def readDigits (most : Nat) (cs : List Char) : Option (Int × List Char) :=
  let ds := (cs.takeWhile Char.isDigit).take most
  if ds = [] then none else some ((Nat.ofDigitChars 10 ds 0 : Nat), cs.drop ds.length)

/-- A number of one or two digits, blanks in front, that lies between two bounds. -/
def readField (low high : Int) (cs : List Char) : Option (Int × List Char) := do
  let (n, rest) ← readDigits 2 (Text.trimStart cs)
  if low ≤ n ∧ n ≤ high then some (n, rest) else none

/-- A year, blanks in front: at most four digits, or a sign and any number of them. -/
def readYear (cs : List Char) : Option (Int × List Char) :=
  match Text.trimStart cs with
  | '-' :: rest => (readDigits rest.length rest).map fun (n, rest) => (-n, rest)
  | '+' :: rest => readDigits rest.length rest
  | rest => readDigits 4 rest

def readMark (mark : Char) (cs : List Char) : Option (List Char) :=
  match cs with
  | c :: rest => if c = mark then some rest else none
  | [] => none

def readChars? (cs : List Char) (zone : Zone) : Option Int := do
  let (year, rest) ← readYear cs
  let rest ← readMark '-' rest
  let (month, rest) ← readField 1 12 rest
  let rest ← readMark '-' rest
  let (day, rest) ← readField 1 31 rest
  let (hour, rest) ← readField 0 23 (Text.trimStart rest)
  let rest ← readMark ':' rest
  let (minute, rest) ← readField 0 59 rest
  let rest ← readMark ':' rest
  let (second, rest) ← readField 0 60 rest
  let date : Date := ⟨year, month, day⟩
  let local' := date.toDay * 86400 + hour * 3600 + minute * 60 + second
  let start := date.toDay * 86400 + hour * 3600 + minute * 60 + min second 59 - zone.seconds
  if rest = [] ∧ date.isValid ∧ inCalendar date.toDay ∧ inCalendar (start / 86400) then
    some ((local' - zone.seconds) * 1000)
  else none

/-- The instant of a text in a zone, blanks around it set aside. -/
def read? (s : String) (zone : Zone) : Option Int := readChars? (Text.trim s.toList) zone

example : write? 1700000000123 .universal = some "2023-11-14 22:13:20" := by decide +kernel

example : read? "2023-11-14 22:13:20" .universal = some 1700000000000 := by decide +kernel

example : read? "+10000-1-2 3:4:5" .universal ≠ none := by decide +kernel

example : read? "10000-01-01 00:00:00" .universal = none := by decide +kernel

end DualStore.Calendar
