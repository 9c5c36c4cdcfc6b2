/-!
# Dates and times

A value of a configuration may be a date, or a date with a time of day. A time of day may say
how many minutes its clock is ahead of universal time. Only days and times that exist are
formed. Two times whose clocks are known are the same when they are the same instant;
otherwise only what is written alike is the same.
-/

namespace FeedForward

/-- A day of the calendar. -/
structure Day where
  year : Nat
  month : Nat
  day : Nat
  deriving DecidableEq, Repr

/-- A time of day, and how many minutes its clock is ahead of universal time if that is known. -/
structure Clock where
  hour : Nat
  minute : Nat
  second : Nat
  microsecond : Nat
  ahead : Option Int
  deriving DecidableEq, Repr

/-- A date, perhaps with a time of day. -/
structure Moment where
  date : Day
  time : Option Clock
  deriving DecidableEq, Repr

namespace Day

/-- Whether a year has a day more than others. -/
def isLeap (year : Nat) : Bool := year % 4 == 0 && (year % 100 != 0 || year % 400 == 0)

/-- The number of days of each month of a year. -/
def monthLengths (year : Nat) : List Nat :=
  [31, if isLeap year then 29 else 28, 31, 30, 31, 30, 31, 31, 30, 31, 30, 31]

/-- The day of a month of a year, if there is one. Years are counted from one to 9999. -/
def ofParts? (year month day : Nat) : Option Day :=
  match month with
  | 0 => none
  | before + 1 =>
    if 0 < year && 0 < day && year < 10000 && day ≤ (monthLengths year).getD before 0 then
      some ⟨year, month, day⟩
    else none

/-- How many days there are up to a day, counted from the first day of the first year. -/
def ordinal (d : Day) : Nat :=
  let years := d.year - 1
  365 * years + years / 4 - years / 100 + years / 400 +
    ((monthLengths d.year).take (d.month - 1)).foldl Nat.add 0 + d.day

end Day

namespace Clock

/-- A time of day, if there is one. A clock is less than a day ahead or behind. -/
def ofParts? (hour minute second microsecond : Nat) (ahead : Option Int) : Option Clock :=
  if hour < 24 && minute < 60 && second < 60 &&
      ahead.all (fun minutes => minutes.natAbs < 1440) then
    some ⟨hour, minute, second, microsecond, ahead⟩
  else none

end Clock

namespace Moment

/-- A number in decimal digits, padded with zeros to a width. -/
def padded (width n : Nat) : String :=
  let digits := toString n
  String.ofList (List.replicate (width - digits.length) '0') ++ digits

/-- How far a clock is ahead, in hours and minutes. -/
def aheadText (minutes : Int) : String :=
  (if minutes < 0 then "-" else "+") ++ padded 2 (minutes.natAbs / 60) ++ ":" ++
    padded 2 (minutes.natAbs % 60)

/-- A time of day as text. -/
def clockText (c : Clock) : String :=
  padded 2 c.hour ++ ":" ++ padded 2 c.minute ++ ":" ++ padded 2 c.second ++
    (if c.microsecond = 0 then "" else "." ++ padded 6 c.microsecond) ++
    (c.ahead.map aheadText).getD ""

/-- A moment as text. -/
def text (m : Moment) : String :=
  padded 4 m.date.year ++ "-" ++ padded 2 m.date.month ++ "-" ++ padded 2 m.date.day ++
    (m.time.map fun c => " " ++ clockText c).getD ""

/-- How far a clock is ahead, as it looks inside a list or a mapping. -/
def inspectAhead (minutes : Int) : String :=
  if minutes = 0 then ", tzinfo=datetime.timezone.utc"
  else
    let seconds := if minutes < 0 then s!"days=-1, seconds={86400 + 60 * minutes}"
      else s!"seconds={60 * minutes}"
    s!", tzinfo=datetime.timezone(datetime.timedelta({seconds}))"

/-- The parts of a time of day without the zeros at the end; hours and minutes stay. -/
def clockParts (c : Clock) : List Nat :=
  [c.hour, c.minute] ++
    if c.microsecond = 0 then (if c.second = 0 then [] else [c.second])
    else [c.second, c.microsecond]

/-- A moment as it looks inside a list or a mapping. -/
def inspect (m : Moment) : String :=
  let day := [m.date.year, m.date.month, m.date.day]
  match m.time with
  | none => "datetime.date(" ++ ", ".intercalate (day.map toString) ++ ")"
  | some c => "datetime.datetime(" ++ ", ".intercalate ((day ++ clockParts c).map toString) ++
      (c.ahead.map inspectAhead).getD "" ++ ")"

/-- The instant of a moment whose clock is known, in microseconds of universal time. -/
def instant? (m : Moment) : Option Int := do
  let c ← m.time
  let ahead ← c.ahead
  let minutes : Int := ((m.date.ordinal * 24 + c.hour) * 60 + c.minute : Nat) - ahead
  return (minutes * 60 + c.second) * 1000000 + c.microsecond

/-- Whether two moments are the same. -/
def same (m n : Moment) : Bool :=
  match m.instant?, n.instant? with
  | some i, some j => i == j
  | _, _ => m == n

end Moment

end FeedForward
