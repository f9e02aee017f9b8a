import Lifecycle.Text.Quoted

/-!
# Dates and moments

Days of the Gregorian calendar from year 1 to year 9999, and moments of a day with microseconds and,
where known, the distance from universal time. Two moments with a known distance are the same when
they denote the same instant; a moment without one is never the same as a moment with one.
-/

namespace Lifecycle

structure Date where
  year : Nat
  month : Nat
  day : Nat
  deriving DecidableEq, Repr

/-- A day, the time on it, and the minutes by which its clock is ahead of universal time. -/
structure Moment where
  date : Date
  hour : Nat
  minute : Nat
  second : Nat
  microsecond : Nat
  offset : Option Int
  deriving DecidableEq, Repr

namespace Date

def isLeap (year : Nat) : Bool :=
  year % 4 == 0 && (year % 100 != 0 || year % 400 == 0)

def daysInMonth (year month : Nat) : Nat :=
  if month == 2 then (if isLeap year then 29 else 28)
  else if [4, 6, 9, 11].contains month then 30
  else 31

/-- The day with the given numbers, if the calendar has it. -/
def ofNumbers? (year month day : Nat) : Option Date :=
  if 1 ≤ year && year ≤ 9999 && 1 ≤ month && month ≤ 12 && 1 ≤ day && day ≤ daysInMonth year month
  then some { year, month, day }
  else none

/-- The number of days before this one since the start of year 1. -/
def ordinal (d : Date) : Nat :=
  let y := d.year - 1
  let months := (List.range d.month).drop 1
  let daysBefore := months.foldl (fun n m => n + daysInMonth d.year m) 0
  y * 365 + y / 4 - y / 100 + y / 400 + daysBefore + (d.day - 1)

end Date

private def padded (width n : Nat) : String :=
  let digits := toString n
  String.ofList (List.replicate (width - digits.length) '0') ++ digits

def Date.text (d : Date) : String :=
  padded 4 d.year ++ "-" ++ padded 2 d.month ++ "-" ++ padded 2 d.day

theorem Date.text_ne_empty (d : Date) : d.text ≠ "" := by
  simp [Date.text]

def Date.quoted (d : Date) : String :=
  "datetime.date(" ++ ", ".intercalate [toString d.year, toString d.month, toString d.day] ++ ")"

namespace Moment

/-- The moment with the given numbers, if clock and offset are in range: the offset stays below a
day. -/
def ofNumbers? (date : Date) (hour minute second microsecond : Nat) (offset : Option Int) :
    Option Moment :=
  let offsetFits := match offset with
    | some minutes => minutes.natAbs < 24 * 60
    | none => true
  if hour < 24 && minute < 60 && second < 60 && microsecond < 1000000 && offsetFits
  then some { date, hour, minute, second, microsecond, offset }
  else none

/-- Microseconds since the start of year 1 on the clock of the moment. -/
def clock (m : Moment) : Int :=
  let seconds := ((m.date.ordinal * 24 + m.hour) * 60 + m.minute) * 60 + m.second
  (seconds * 1000000 + m.microsecond : Nat)

def same (a b : Moment) : Bool :=
  match a.offset, b.offset with
  | none, none => a.clock == b.clock
  | some x, some y => a.clock - x * 60000000 == b.clock - y * 60000000
  | _, _ => false

private def offsetText (minutes : Int) : String :=
  let n := minutes.natAbs
  (if minutes < 0 then "-" else "+") ++ padded 2 (n / 60) ++ ":" ++ padded 2 (n % 60)

/-- Day, clock, microseconds if there are any, and the offset if it is known. -/
def text (m : Moment) : String :=
  m.date.text ++ " " ++ padded 2 m.hour ++ ":" ++ padded 2 m.minute ++ ":" ++ padded 2 m.second ++
    (if m.microsecond = 0 then "" else "." ++ padded 6 m.microsecond) ++
    (m.offset.map offsetText).getD ""

theorem text_ne_empty (m : Moment) : m.text ≠ "" := by
  simp [text]

private def offsetQuoted (minutes : Int) : String :=
  if minutes = 0 then "datetime.timezone.utc"
  else
    let seconds := minutes * 60
    let days := seconds / 86400
    let rest := seconds % 86400
    "datetime.timezone(datetime.timedelta(" ++
      (if days = 0 then "" else s!"days={days}" ++ (if rest = 0 then "" else ", ")) ++
      (if rest = 0 then "" else s!"seconds={rest}") ++ "))"

/-- The form of a moment inside a container: seconds and microseconds are left out when they are
zero. -/
def quoted (m : Moment) : String :=
  let fine :=
    if m.microsecond ≠ 0 then [m.second, m.microsecond]
    else if m.second ≠ 0 then [m.second]
    else []
  let numbers := [m.date.year, m.date.month, m.date.day, m.hour, m.minute] ++ fine
  let zone := match m.offset with
    | some minutes => ["tzinfo=" ++ offsetQuoted minutes]
    | none => []
  "datetime.datetime(" ++ ", ".intercalate (numbers.map toString ++ zone) ++ ")"

end Moment

end Lifecycle
