import FeedForward.Decimal.Shortest
import FeedForward.Numeric.Double

/-!
# Written numbers

The three ways in which the program writes a double. Answers carry nine significant
digits and always an exponent. Messages and logs carry the fewest digits that read
back. The summary of a neuron carries at most six significant digits.
-/

namespace FeedForward.Decimal

open FeedForward.Numeric

/-- The digits of a number without the zeros at the end; at least one digit stays. -/
def trimmed (digits : Nat) : List Char :=
  match ((Nat.toDigits 10 digits).reverse.dropWhile (· == '0')).reverse with
  | [] => ['0']
  | ds => ds

/-- A power of ten after a mark, with a sign and at least two digits. -/
def exponentText (power : Int) : String :=
  let ds := toString power.natAbs
  "e" ++ (if power < 0 then "-" else "+") ++ (if power.natAbs < 10 then "0" ++ ds else ds)

/-- One digit before the point and the others behind it. -/
def pointed : List Char → String
  | [] => ""
  | [d] => String.ofList [d]
  | d :: ds => String.ofList (d :: '.' :: ds)

/-- How digits are laid out: from which power of ten on an exponent is written, and
whether a whole number keeps a point and a zero. -/
structure Layout where
  exponentFrom : Int
  keepsPoint : Bool

/-- Digits at their place around the point. Numbers below `10 ^ -4` and those from the
layout's limit on are written with an exponent. -/
def Layout.place (layout : Layout) (digits : List Char) (power : Int) : String :=
  if power < -4 || layout.exponentFrom ≤ power then pointed digits ++ exponentText power
  else if power < 0 then
    "0." ++ String.ofList (List.replicate ((-power).toNat - 1) '0' ++ digits)
  else
    let whole := power.toNat + 1
    if digits.length ≤ whole then
      String.ofList (digits ++ List.replicate (whole - digits.length) '0') ++
        (if layout.keepsPoint then ".0" else "")
    else String.ofList (digits.take whole ++ '.' :: digits.drop whole)

/-- A sign in front of a negative number. -/
def signed (negative : Bool) (text : String) : String := if negative then "-" ++ text else text

/-- Messages and logs: whole numbers end in `.0`, and an exponent appears from `10 ^ 16`. -/
def messageLayout : Layout := ⟨16, true⟩

/-- Summaries: no point behind a whole number, and an exponent from `10 ^ 6`. -/
def summaryLayout : Layout := ⟨6, false⟩

/-- The fewest digits that read back. -/
def message (x : Double) : String :=
  match decodeBits x.word with
  | .nan => "nan"
  | .infinite negative => signed negative "inf"
  | .finite negative 0 _ => signed negative "0.0"
  | .finite negative mantissa exponent =>
    let shown := shortest mantissa exponent
    signed negative (messageLayout.place (trimmed shown.digits) shown.power)

/-- At most six significant digits. -/
def summary (x : Double) : String :=
  match decodeBits x.word with
  | .nan => "nan"
  | .infinite negative => signed negative "inf"
  | .finite negative 0 _ => signed negative "0"
  | .finite negative mantissa exponent =>
    let (num, den) := fractionOf mantissa exponent
    let shown := significant 6 num den
    signed negative (summaryLayout.place (trimmed shown.digits) shown.power)

/-- Nine significant digits and an exponent; either zero is the single digit. -/
def answer (x : Double) : String :=
  match decodeBits x.word with
  | .nan => "nan"
  | .infinite negative => signed negative "inf"
  | .finite _ 0 _ => "0"
  | .finite negative mantissa exponent =>
    let (num, den) := fractionOf mantissa exponent
    let shown := significant 9 num den
    signed negative (pointed (Nat.toDigits 10 shown.digits) ++ exponentText shown.power)

end FeedForward.Decimal
