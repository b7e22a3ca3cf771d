/-!
# Dates and times of day

A date of the Gregorian calendar, and a time stamp that may carry an offset from universal time, in seconds.  `Date.ofParts`
and `Timestamp.ofParts` accept exactly the parts that name a day and a time of day, and say of others what is wrong.
-/
namespace Provision

structure Date where
  year : Nat
  month : Nat
  day : Nat
  deriving DecidableEq, Inhabited

structure Timestamp where
  date : Date
  hour : Nat
  minute : Nat
  second : Nat
  /-- Millionths of a second. -/
  fraction : Nat
  /-- Seconds ahead of universal time, where known. -/
  offset : Option Int
  deriving DecidableEq, Inhabited

/-- Why parts name no day or no time of day. -/
inductive CalendarFault where
  | year (found : Nat)
  | month
  | day
  | hour
  | minute
  | second
  | offset (seconds : Int)
  deriving DecidableEq, Repr

def padded (width n : Nat) : String :=
  let digits := (toString n).toList
  String.ofList (List.replicate (width - digits.length) '0' ++ digits)

namespace Date

def isLeap (year : Nat) : Bool := year % 4 == 0 && (year % 100 != 0 || year % 400 == 0)

def daysInMonth (year month : Nat) : Nat :=
  if month = 2 then (if isLeap year then 29 else 28)
  else if month = 4 ∨ month = 6 ∨ month = 9 ∨ month = 11 then 30
  else 31

def ofParts (year month day : Nat) : Except CalendarFault Date :=
  if year < 1 ∨ 9999 < year then .error (.year year)
  else if month < 1 ∨ 12 < month then .error .month
  else if day < 1 ∨ daysInMonth year month < day then .error .day
  else .ok ⟨year, month, day⟩

/-- The days before a year, counted from the first day of year 1. -/
def daysBeforeYear (year : Nat) : Nat :=
  let y := year - 1
  y * 365 + y / 4 - y / 100 + y / 400

/-- The number of the day, counted from the first day of year 1. -/
def dayNumber (d : Date) : Nat :=
  (List.range (d.month - 1)).foldl (fun n m => n + daysInMonth d.year (m + 1)) (daysBeforeYear d.year) + d.day

def text (d : Date) : String := padded 4 d.year ++ "-" ++ padded 2 d.month ++ "-" ++ padded 2 d.day

end Date

namespace Timestamp

/-- Offsets of a day or more name no zone. -/
def checkOffset : Option Int → Except CalendarFault Unit
  | some o => if o.natAbs < 86400 then .ok () else .error (.offset o)
  | none => .ok ()

def checkTime (hour minute second : Nat) : Except CalendarFault Unit :=
  if 24 ≤ hour then .error .hour
  else if 60 ≤ minute then .error .minute
  else if 60 ≤ second then .error .second
  else .ok ()

/-- The zone is looked at first. -/
def ofParts (year month day hour minute second fraction : Nat) (offset : Option Int) : Except CalendarFault Timestamp := do
  checkOffset offset
  let date ← Date.ofParts year month day
  checkTime hour minute second
  return ⟨date, hour, minute, second, fraction, offset⟩

/-- Millionths of a second since the first day of year 1, in universal time if the offset is known. -/
def instant (t : Timestamp) : Int :=
  let seconds : Int := t.date.dayNumber * 86400 + t.hour * 3600 + t.minute * 60 + t.second
  (seconds - t.offset.getD 0) * 1000000 + t.fraction

/-- Equality of instants: a stamp with an offset never equals one without. -/
def same (s t : Timestamp) : Bool := s.offset.isSome == t.offset.isSome && s.instant == t.instant

def offsetText (o : Int) : String :=
  let n := o.natAbs
  (if o < 0 then "-" else "+") ++ padded 2 (n / 3600) ++ ":" ++ padded 2 (n / 60 % 60) ++
    (if n % 60 = 0 then "" else ":" ++ padded 2 (n % 60))

def text (t : Timestamp) : String :=
  t.date.text ++ " " ++ padded 2 t.hour ++ ":" ++ padded 2 t.minute ++ ":" ++ padded 2 t.second ++
    (if t.fraction = 0 then "" else "." ++ padded 6 t.fraction) ++ (t.offset.map offsetText).getD ""

end Timestamp

end Provision
