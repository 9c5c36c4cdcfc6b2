import FeedForward.Numeric.Double
import FeedForward.Text.Blank

/-!
# Reading numerals

Whole numbers and decimal fractions in text, with digits of any script, blanks around
them and single underscores between digits. A decimal numeral is read as the double
nearest to it; beyond the range it becomes infinite or zero.
-/

namespace FeedForward.Decimal

open FeedForward.Text

/-- The number with the given decimal digits. -/
def ofDigits (digits : List Nat) : Nat := digits.foldl (fun n d => 10 * n + d) 0

/-- The double nearest to `digits * 10 ^ power`. Beyond four hundred places no digit
of a double is left, so the power of ten is not formed. -/
def nearest (negative : Bool) (digits : Nat) (power : Int) : Double :=
  let size := (Nat.toDigits 10 digits).length
  let x : Double :=
    if digits = 0 then 0
    else if 400 < (size : Int) + power then .infinity
    else if (size : Int) + power < -400 then 0
    else OfScientific.ofScientific digits (power < 0) power.natAbs
  if negative then -x else x

/-- The digits that follow a first digit, each with at most one underscore before it. -/
def moreDigits : List Char → List Nat × List Char
  | [] => ([], [])
  | '_' :: c :: rest =>
    match digitValue? c with
    | some d => let (ds, left) := moreDigits rest; (d :: ds, left)
    | none => ([], '_' :: c :: rest)
  | c :: rest =>
    match digitValue? c with
    | some d => let (ds, left) := moreDigits rest; (d :: ds, left)
    | none => ([], c :: rest)

/-- A group of at least one digit. -/
def digitGroup? : List Char → Option (List Nat × List Char)
  | [] => none
  | c :: rest =>
    (digitValue? c).map fun d => let (ds, left) := moreDigits rest; (d :: ds, left)

/-- A group of digits, possibly empty. -/
def digitGroup (s : List Char) : List Nat × List Char := (digitGroup? s).getD ([], s)

/-- A sign, if there is one: whether it is a minus, and what follows. -/
def takeSign : List Char → Bool × List Char
  | '-' :: rest => (true, rest)
  | '+' :: rest => (false, rest)
  | s => (false, s)

/-- The power of ten at the end of a numeral; nothing at all is the power zero. -/
def readPower? : List Char → Option Int
  | [] => some 0
  | c :: rest =>
    if c = 'e' || c = 'E' then
      let (negative, digits) := takeSign rest
      match digitGroup? digits with
      | some (ds, []) => some (if negative then -(ofDigits ds : Int) else ofDigits ds)
      | _ => none
    else none

/-- A decimal numeral without sign and blanks. -/
def readUnsigned? (negative : Bool) (s : List Char) : Option Double :=
  let (whole, afterWhole) := digitGroup s
  let (places, left) :=
    match afterWhole with
    | '.' :: rest => digitGroup rest
    | _ => ([], afterWhole)
  if whole.isEmpty && places.isEmpty then none
  else (readPower? left).map fun power =>
    nearest negative (ofDigits (whole ++ places)) (power - places.length)

/-- The lower case of an ASCII letter. -/
def lowerAscii (s : List Char) : String := String.ofList (s.map Char.toLower)

/-- A decimal numeral, an infinity or not a number. -/
def readNumber? (text : String) : Option Double :=
  let (negative, s) := takeSign (strip text.toList)
  match lowerAscii s with
  | "inf" | "infinity" => some (if negative then -.infinity else .infinity)
  | "nan" => some (if negative then -.nan else .nan)
  | _ => readUnsigned? negative s

/-- The most digits that a whole number in text may have. -/
def digitLimit : Nat := 4300

/-- A whole number. -/
def readInteger? (text : String) : Option Int :=
  let (negative, s) := takeSign (strip text.toList)
  match digitGroup? s with
  | some (ds, []) =>
    if digitLimit < ds.length then none
    else some (if negative then -(ofDigits ds : Int) else ofDigits ds)
  | _ => none

end FeedForward.Decimal
