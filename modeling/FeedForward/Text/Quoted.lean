import FeedForward.Text.Printable
import FeedForward.Text.Unit

/-!
# Quoted text

Messages show a text between quotes. The quotes are single unless the text holds a
single quote and no double one. The quote in use, the backslash and every character
without a printed form are escaped.
-/

namespace FeedForward.Text

/-- The lower-case hexadecimal digits of a number, padded with zeros to a width. -/
def hexDigits : Nat → Nat → List Char
  | 0, _ => []
  | width + 1, n => hexDigits width (n / 16) ++ [Nat.digitChar (n % 16)]

/-- The shortest numbered escape that holds a number. -/
def escapeNumber (n : Nat) : List Char :=
  if n < 0x100 then '\\' :: 'x' :: hexDigits 2 n
  else if n < 0x10000 then '\\' :: 'u' :: hexDigits 4 n
  else '\\' :: 'U' :: hexDigits 8 n

/-- The numbered escape of a character, or of the half of one that it keeps. -/
def numberedEscape (c : Char) : List Char := escapeNumber ((keptUnit? c).getD c.toNat)

/-- The quote around a text. -/
def quoteFor (s : List Char) : Char :=
  if s.contains '\'' && !s.contains '"' then '"' else '\''

/-- One character between quotes. -/
def escapeChar (quote c : Char) : List Char :=
  if c = quote || c = '\\' then ['\\', c]
  else if c = '\n' then ['\\', 'n']
  else if c = '\r' then ['\\', 'r']
  else if c = '\t' then ['\\', 't']
  else if isPrintable c then [c]
  else numberedEscape c

/-- A text as messages show it. -/
def quoted (s : String) : String :=
  let quote := quoteFor s.toList
  String.ofList (quote :: s.toList.flatMap (escapeChar quote) ++ [quote])

/-- Quoted texts in square brackets, parted by commas. -/
def quotedList (names : List String) : String :=
  "[" ++ ", ".intercalate (names.map quoted) ++ "]"

/-- Numbers in square brackets, parted by commas. -/
def bracketed (numbers : List Nat) : String :=
  "[" ++ ", ".intercalate (numbers.map toString) ++ "]"

/-- The extents of an array in parentheses; a single extent keeps its comma. -/
def extents : List Nat → String
  | [n] => "(" ++ toString n ++ ",)"
  | ns => "(" ++ ", ".intercalate (ns.map toString) ++ ")"

end FeedForward.Text
