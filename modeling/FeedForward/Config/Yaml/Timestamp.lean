import FeedForward.Config.Moment

/-!
# Dates and times in YAML

A date has a year of four digits, a month and a day, with dashes between them. A time of day
stands behind it after a `T` or blanks and has hours, minutes and seconds, perhaps with
places, and perhaps how far its clock is ahead of universal time; `Z` stands for not at all.
A date alone has two digits for the month and the day, a date with a time may have one.
What is written like a date or a time need not exist.
-/

namespace FeedForward.Yaml

/-- A number of at least and at most so many digits in front, and what follows it. -/
def readDigits (least most : Nat) (s : List Char) : Option (Nat × List Char) :=
  let digits := (s.take most).takeWhile Char.isDigit
  if digits.length < least then none
  else some (digits.foldl (fun n c => 10 * n + (c.toNat - 48)) 0, s.drop digits.length)

/-- What follows a character, if a text starts with it. -/
def after? (c : Char) : List Char → Option (List Char)
  | d :: rest => if c = d then some rest else none
  | [] => none

/-- Whether a character is a blank or a tab. -/
def isSpacing (c : Char) : Bool := c = ' ' || c = '\t'

/-- A date whose month and day have at least so many digits, as its year, month and day. -/
def readDay (least : Nat) (s : List Char) : Option ((Nat × Nat × Nat) × List Char) := do
  let (year, s) ← readDigits 4 4 s
  let (month, s) ← readDigits least 2 (← after? '-' s)
  let (day, s) ← readDigits least 2 (← after? '-' s)
  return ((year, month, day), s)

/-- What follows the mark between a date and a time. -/
def afterSeparator? (s : List Char) : Option (List Char) :=
  match s with
  | c :: rest =>
    if c = 'T' || c = 't' then some rest
    else if isSpacing c then some (rest.dropWhile isSpacing)
    else none
  | [] => none

/-- The millionths of a second behind a point; further places are left out. -/
def readMicroseconds (s : List Char) : Nat × List Char :=
  match s with
  | '.' :: rest =>
    let places := (rest.takeWhile Char.isDigit).take 6
    ((places ++ List.replicate (6 - places.length) '0').foldl
      (fun n c => 10 * n + (c.toNat - 48)) 0, rest.dropWhile Char.isDigit)
  | _ => (0, s)

/-- How many minutes a clock is ahead, at the end of a text; nothing at all says nothing. -/
def readAhead? (s : List Char) : Option (Option Int) :=
  match s, s.dropWhile isSpacing with
  | [], _ => some none
  | _, ['Z'] => some (some 0)
  | _, sign :: rest => do
    if sign ≠ '+' ∧ sign ≠ '-' then none
    let (hours, rest) ← readDigits 1 2 rest
    let (minutes, rest) ← if rest.isEmpty then pure (0, []) else readDigits 2 2 (← after? ':' rest)
    if !rest.isEmpty then none
    let ahead : Int := (60 * hours + minutes : Nat)
    return some (if sign = '-' then -ahead else ahead)
  | _, [] => none

/-- A date with a time of day that is written like one; the inner option says whether there
is such a moment. -/
def readTimed? (s : List Char) : Option (Option Moment) := do
  let ((year, month, day), s) ← readDay 1 s
  let (hour, s) ← readDigits 1 2 (← afterSeparator? s)
  let (minute, s) ← readDigits 2 2 (← after? ':' s)
  let (second, s) ← readDigits 2 2 (← after? ':' s)
  let (microsecond, s) := readMicroseconds s
  let ahead ← readAhead? s
  return do
    let date ← Day.ofParts? year month day
    let time ← Clock.ofParts? hour minute second microsecond ahead
    return ⟨date, some time⟩

/-- A date, perhaps with a time of day, that is written like one; the inner option says
whether there is such a moment. -/
def timestamp? (s : List Char) : Option (Option Moment) :=
  match readDay 2 s with
  | some ((year, month, day), []) => some ((Day.ofParts? year month day).map fun date => ⟨date, none⟩)
  | _ => readTimed? s

end FeedForward.Yaml
