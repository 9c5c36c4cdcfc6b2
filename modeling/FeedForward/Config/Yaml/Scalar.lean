import FeedForward.Config.Json
import FeedForward.Config.Yaml.Timestamp

/-!
# Plain scalars of YAML

A scalar without quotes stands for a truth value, a number, a date or nothing if it is
written like one, and for its text otherwise. Numbers may have underscores between their
digits. Whole numbers may be binary, octal after a leading zero, hexadecimal, or in base
sixty with colons; a number with a point may also be in base sixty. A power of ten counts
only behind a point and with a sign.

What is written like a number or a date may still not be one: there may be no digits, too
many decimal ones, or no such day.
-/

namespace FeedForward.Yaml

/-- Words that stand for a truth value, in the three usual spellings. -/
def truthWords : List (String × Bool) :=
  [("yes", true), ("Yes", true), ("YES", true), ("no", false), ("No", false), ("NO", false),
    ("true", true), ("True", true), ("TRUE", true), ("false", false), ("False", false),
    ("FALSE", false), ("on", true), ("On", true), ("ON", true), ("off", false), ("Off", false),
    ("OFF", false)]

/-- Words that stand for nothing. -/
def nullWords : List String := ["", "~", "null", "Null", "NULL"]

/-- A sign in front, and whether it is a minus. -/
def signed (s : List Char) : Bool × List Char := Decimal.takeSign s

/-- Whether a character may stand among decimal digits. -/
def isDigitOrGap (c : Char) : Bool := c.isDigit || c = '_'

/-- A text without its underscores. -/
def withoutGaps (s : List Char) : List Char := s.filter fun c => c != '_'

/-- The number that digits in a base stand for, if there are any. -/
def inBase (base : Nat) (digits : List Char) : Option Nat :=
  if digits.isEmpty then none
  else digits.foldlM (fun n c => (Json.hexValue? c).map fun d => n * base + d) 0

/-- The number that decimal digits stand for, if there are any and not too many. -/
def inDecimal (digits : List Char) : Option Nat :=
  if Decimal.digitLimit < digits.length then none else inBase 10 digits

/-- The parts of a text between colons. -/
def atColons (s : List Char) : List (List Char) := s.splitOn ':'

/-- Whether a text may follow a colon in base sixty: one or two digits below sixty. -/
def isSixtieth : List Char → Bool
  | [c] => c.isDigit
  | [c, d] => '0' ≤ c && c ≤ '5' && d.isDigit
  | _ => false

/-- Whether a text starts with a digit and goes on with digits and underscores. -/
def isCount : List Char → Bool
  | c :: rest => c.isDigit && rest.all isDigitOrGap
  | [] => false

/-- A whole number that is written like one, without its sign. The outer option says whether
it is written like one, the inner one whether it is one. -/
def whole? (s : List Char) : Option (Option Nat) :=
  match s with
  | '0' :: 'b' :: digits =>
    if !digits.isEmpty && digits.all (fun c => c = '0' || c = '1' || c = '_') then
      some (inBase 2 (withoutGaps digits))
    else none
  | '0' :: 'x' :: digits =>
    if !digits.isEmpty && digits.all (fun c => (Json.hexValue? c).isSome || c = '_') then
      some (inBase 16 (withoutGaps digits))
    else none
  | ['0'] => some (some 0)
  | '0' :: digits =>
    if digits.all (fun c => ('0' ≤ c && c ≤ '7') || c = '_') then
      some (inBase 8 ('0' :: withoutGaps digits))
    else none
  | _ =>
    match atColons s with
    | first :: sixtieths =>
      if isCount first && sixtieths.all isSixtieth then
        some ((first :: sixtieths).foldlM
          (fun n part => (inDecimal (withoutGaps part)).map fun d => n * 60 + d) 0)
      else none
    | [] => none

/-- Whether a text is nothing or a power of ten with a sign. -/
def isPower : List Char → Bool
  | [] => true
  | e :: sign :: digits =>
    (e = 'e' || e = 'E') && (sign = '+' || sign = '-') && !digits.isEmpty &&
      digits.all Char.isDigit
  | _ => false

/-- Whether a text is written like a number with a point, without base sixty; only a number
with digits in front of the point may have a sign. -/
def isPointed (hasSign : Bool) (s : List Char) : Bool :=
  let digits := s.takeWhile isDigitOrGap
  match s.dropWhile isDigitOrGap with
  | '.' :: rest =>
    let places := rest.takeWhile isDigitOrGap
    isPower (rest.dropWhile isDigitOrGap) &&
      (if digits.isEmpty then !hasSign && isCount places else isCount digits)
  | _ => false

/-- Digits in base sixty added up, the last digit first, where the next one is worth `base`. -/
def sumSixtieths (sum : Double) (base : Nat) : List Double → Except Fault Double
  | [] => .ok sum
  | x :: rest => do sumSixtieths (sum + x * (← Value.ofInteger base)) (base * 60) rest

/-- A number with a point in base sixty that is written like one, without its sign. -/
def pointedSixtieths? (s : List Char) : Option (Except Fault Double) :=
  let parts := atColons (s.takeWhile fun c => c != '.')
  match s.dropWhile fun c => c != '.' with
  | '.' :: places =>
    match parts with
    | first :: second :: rest =>
      if isCount first && (second :: rest).all isSixtieth && places.all isDigitOrGap then
        let digits := (first :: second :: rest).dropLast.map withoutGaps
        let last := withoutGaps (((second :: rest).getLastD []) ++ '.' :: places)
        let numbers := (digits ++ [last]).reverse.filterMap fun part =>
          Decimal.readNumber? (String.ofList part)
        some (sumSixtieths 0 1 numbers)
      else none
    | _ => none
  | _ => none

/-- A number with a point that is written like one. -/
def pointed? (s : List Char) : Option (Except Fault Double) :=
  let (negative, unsigned) := signed s
  let hasSign := unsigned.length < s.length
  let withSign (x : Double) := if negative then -x else x
  if unsigned = ".inf".toList || unsigned = ".Inf".toList || unsigned = ".INF".toList then
    some (.ok (withSign .infinity))
  else if s = ".nan".toList || s = ".NaN".toList || s = ".NAN".toList then some (.ok .nan)
  else if isPointed hasSign unsigned then
    (Decimal.readNumber? (String.ofList (withoutGaps unsigned))).map fun x => .ok (withSign x)
  else (pointedSixtieths? unsigned).map fun sum => sum.map withSign

/-- What a scalar without quotes stands for. -/
def plainAtom (text : String) : Except Fault Atom :=
  match truthWords.lookup text with
  | some b => .ok (.bool b)
  | none =>
    match pointed? text.toList with
    | some x => x.map .number
    | none =>
      let (negative, unsigned) := signed text.toList
      match whole? unsigned with
      | some (some n) => .ok (.integer (if negative then -n else n))
      | some none => .error .notANumeral
      | none =>
        match timestamp? text.toList with
        | some (some m) => .ok (.moment m)
        | some none => .error .notANumeral
        | none =>
          if nullWords.contains text then .ok .null
          else if text = "<<" || text = "=" then .error .invalidYaml
          else .ok (.text text)

end FeedForward.Yaml
