import FeedForward.Config.Value

/-!
# JSON

Reading and writing values as JSON. The reader takes strict JSON and the three words
for numbers that JSON lacks; of equal keys the last one counts. A whole number may not
have more digits than a whole number in text may have, which is a fault of its own. Of
several faults in a text the first one counts. The writer puts a blank after every comma
and colon and escapes everything outside printable ASCII.
-/

namespace FeedForward.Json

/-- A lexical element. What cannot be read stands for the fault of reading it. -/
inductive Token where
  | leftBracket
  | rightBracket
  | leftBrace
  | rightBrace
  | comma
  | colon
  | atom (a : Atom)
  | broken (fault : Fault)

/-- The value of a hexadecimal digit. -/
def hexValue? (c : Char) : Option Nat :=
  if c.isDigit then some (c.toNat - 48)
  else if 'a' ≤ c ∧ c ≤ 'f' then some (c.toNat - 87)
  else if 'A' ≤ c ∧ c ≤ 'F' then some (c.toNat - 55)
  else none

/-- The number of four hexadecimal digits. -/
def hexFour? (a b c d : Char) : Option Nat := do
  return (((← hexValue? a) * 16 + (← hexValue? b)) * 16 + (← hexValue? c)) * 16 + (← hexValue? d)

/-- The character that a short escape stands for. -/
def shortEscape? : Char → Option Char
  | '"' => '"'
  | '\\' => '\\'
  | '/' => '/'
  | 'b' => '\x08'
  | 'f' => '\x0c'
  | 'n' => '\n'
  | 'r' => '\r'
  | 't' => '\t'
  | _ => none

/-- A character in front of the rest of a string. -/
def withChar (c : Char) (rest : Option (List Char × List Char)) :
    Option (List Char × List Char) :=
  rest.map fun (s, left) => (c :: s, left)

/-- A string behind its opening quote, and what follows its closing quote. `pending`
is the first half of a character whose second half has to follow at once. -/
def readString (pending : Option Nat) : List Char → Option (List Char × List Char)
  | '"' :: rest => some (flush [], rest)
  | '\\' :: 'u' :: a :: b :: c :: d :: rest =>
    match hexFour? a b c d with
    | none => none
    | some unit =>
      match pending with
      | some high =>
        if Text.isLowUnit unit then withChar (Text.ofUnits high unit) (readString none rest)
        else if Text.isHighUnit unit then
          withChar (Text.ofUnit high) (readString (some unit) rest)
        else withChar (Text.ofUnit high) (withChar (Text.ofUnit unit) (readString none rest))
      | none =>
        if Text.isHighUnit unit then readString (some unit) rest
        else withChar (Text.ofUnit unit) (readString none rest)
  | '\\' :: c :: rest =>
    match shortEscape? c with
    | some e => (withChar e (readString none rest)).map fun (s, left) => (flush s, left)
    | none => none
  | c :: rest =>
    if c.toNat < 32 || c = '\\' then none
    else (withChar c (readString none rest)).map fun (s, left) => (flush s, left)
  | [] => none
where
  /-- Puts a half of a character that stayed alone in front. -/
  flush (s : List Char) : List Char := (pending.map Text.ofUnit).toList ++ s

/-- The ASCII digits in front, and what follows them. -/
def spanDigits (s : List Char) : List Nat × List Char :=
  ((s.takeWhile Char.isDigit).map fun c => c.toNat - 48, s.dropWhile Char.isDigit)

/-- The places behind a point, if a digit follows it. -/
def readPlaces : List Char → Option (List Nat) × List Char
  | '.' :: rest =>
    match spanDigits rest with
    | ([], _) => (none, '.' :: rest)
    | (places, left) => (some places, left)
  | s => (none, s)

/-- The power of ten behind an `e`, if a digit follows. -/
def readPower : List Char → Option Int × List Char
  | s@(c :: rest) =>
    if c = 'e' || c = 'E' then
      let (negative, digits) := Decimal.takeSign rest
      match spanDigits digits with
      | ([], _) => (none, s)
      | (ds, left) =>
        (some (if negative then -(Decimal.ofDigits ds : Int) else Decimal.ofDigits ds), left)
    else (none, s)
  | [] => (none, [])

/-- A number behind its sign. A number with places or a power of ten is a double. -/
def readNumber (negative : Bool) (s : List Char) : Option (Token × List Char) :=
  let whole : Option (List Nat × List Char) :=
    match s with
    | '0' :: rest => some ([0], rest)
    | _ =>
      match spanDigits s with
      | ([], _) => none
      | (ds, rest) => some (ds, rest)
  whole.map fun (ds, rest) =>
    let (places, rest) := readPlaces rest
    let (power, rest) := readPower rest
    match places, power with
    | none, none =>
      if Decimal.digitLimit < ds.length then (.broken .notANumeral, rest)
      else
        let n : Int := Decimal.ofDigits ds
        (.atom (.integer (if negative then -n else n)), rest)
    | _, _ =>
      let places := places.getD []
      (.atom (.number (Decimal.nearest negative (Decimal.ofDigits (ds ++ places))
        (power.getD 0 - places.length))), rest)

/-- What follows a word, if the text starts with it. -/
def afterWord? (word : String) (s : List Char) : Option (List Char) :=
  let letters := word.toList
  if letters.isPrefixOf s then some (s.drop letters.length) else none

/-- A word that stands for a value. -/
def words : List (String × Atom) :=
  [("null", .null), ("true", .bool true), ("false", .bool false), ("NaN", .number .nan),
    ("Infinity", .number .infinity), ("-Infinity", .number (-.infinity))]

/-- The lexical element in front of a text that starts with no blank. -/
def readToken (s : List Char) : Option (Token × List Char) :=
  match s with
  | [] => none
  | '[' :: rest => some (.leftBracket, rest)
  | ']' :: rest => some (.rightBracket, rest)
  | '{' :: rest => some (.leftBrace, rest)
  | '}' :: rest => some (.rightBrace, rest)
  | ',' :: rest => some (.comma, rest)
  | ':' :: rest => some (.colon, rest)
  | '"' :: rest =>
    (readString none rest).map fun (text, left) => (.atom (.text (String.ofList text)), left)
  | c :: rest =>
    match words.findSome? fun (word, a) => (afterWord? word s).map fun left => (a, left) with
    | some (a, left) => some (.atom a, left)
    | none => if c = '-' then readNumber true rest else readNumber false s

/-- Whether a character may stand between lexical elements. -/
def isSpace (c : Char) : Bool := c = ' ' || c = '\t' || c = '\n' || c = '\r'

/-- The lexical elements of a text, up to the first that cannot be read. -/
def tokens (s : List Char) : List Token :=
  match s with
  | [] => []
  | c :: rest =>
    if isSpace c then tokens rest
    else
      match readToken (c :: rest) with
      | none => [.broken .invalidJson]
      | some (token, left) =>
        if left.length ≤ rest.length then token :: tokens left else [.broken .invalidJson]
termination_by s.length

/-- A list, its last item first, or a mapping with the key of its next value. -/
inductive Frame where
  | items (done : List Value)
  | entries (done : List (Atom × Value)) (key : Atom)

/-- What may come next: a value, perhaps the end of an empty list, the first key of a
mapping or its end, a further key, a colon behind a key, or a comma or an end. -/
inductive Expected where
  | value
  | firstItem
  | firstKey
  | key (done : List (Atom × Value))
  | colon (done : List (Atom × Value)) (key : Atom)
  | separator

/-- Reads on inside the lists and mappings that are still open, innermost first. -/
def parse : List Frame → Expected → List Token → Except Fault Value
  | frames, .value, .atom a :: rest | frames, .firstItem, .atom a :: rest =>
    close frames (.atom a) rest
  | _, .value, .broken fault :: _ | _, .firstItem, .broken fault :: _ => .error fault
  | frames, .value, .leftBracket :: rest | frames, .firstItem, .leftBracket :: rest =>
    parse (.items [] :: frames) .firstItem rest
  | frames, .value, .leftBrace :: rest | frames, .firstItem, .leftBrace :: rest =>
    parse frames .firstKey rest
  | .items _ :: outer, .firstItem, .rightBracket :: rest => close outer (.list []) rest
  | frames, .firstKey, .rightBrace :: rest => close frames (.mapping []) rest
  | frames, .firstKey, .atom (.text key) :: rest => parse frames (.colon [] (.text key)) rest
  | frames, .key done, .atom (.text key) :: rest => parse frames (.colon done (.text key)) rest
  | frames, .colon done key, .colon :: rest => parse (.entries done key :: frames) .value rest
  | .items done :: outer, .separator, .comma :: rest => parse (.items done :: outer) .value rest
  | .entries done _ :: outer, .separator, .comma :: rest => parse outer (.key done) rest
  | .items done :: outer, .separator, .rightBracket :: rest =>
    close outer (.list done.reverse) rest
  | .entries done _ :: outer, .separator, .rightBrace :: rest => close outer (.mapping done) rest
  | _, _, _ => .error .invalidJson
where
  /-- A finished value goes into the innermost open list or mapping. -/
  close (frames : List Frame) (value : Value) (rest : List Token) : Except Fault Value :=
    match frames with
    | [] => if rest.isEmpty then .ok value else .error .invalidJson
    | .items done :: outer => parse (.items (value :: done) :: outer) .separator rest
    | .entries done key :: outer =>
      parse (.entries (Value.put key value done) key :: outer) .separator rest

/-- The value that a JSON text stands for. -/
def read (text : String) : Except Fault Value := parse [] .value (tokens text.toList)

/-- A character inside a written string. -/
def escapeChar (c : Char) : List Char :=
  if c = '"' || c = '\\' then ['\\', c]
  else if c = '\n' then ['\\', 'n']
  else if c = '\r' then ['\\', 'r']
  else if c = '\t' then ['\\', 't']
  else if c = '\x08' then ['\\', 'b']
  else if c = '\x0c' then ['\\', 'f']
  else if 32 ≤ c.toNat && c.toNat < 127 then [c]
  else (Text.units c).flatMap fun unit => '\\' :: 'u' :: Text.hexDigits 4 unit

/-- A written string. -/
def quote (s : String) : String :=
  String.ofList ('"' :: s.toList.flatMap escapeChar ++ ['"'])

/-- A written double. -/
def writeNumber (x : Double) : String :=
  if x.isNaN then "NaN"
  else if x.isFinite then Decimal.message x
  else if x.le 0 then "-Infinity"
  else "Infinity"

/-- A written atom. -/
def writeAtom : Atom → String
  | .null => "null"
  | .bool b => if b then "true" else "false"
  | .integer n => toString n
  | .number x => writeNumber x
  | .moment m => quote m.text
  | .text s => quote s

/-- A written key: any atom between quotes. -/
def writeKey : Atom → String
  | .moment m => quote m.text
  | .text s => quote s
  | a => quote (writeAtom a)

mutual

/-- A written value. -/
def write : Value → String
  | .atom a => writeAtom a
  | .list items => "[" ++ ", ".intercalate (writeItems items) ++ "]"
  | .mapping entries => "\x7b" ++ ", ".intercalate (writeEntries entries) ++ "\x7d"

/-- The items of a list. -/
def writeItems : List Value → List String
  | [] => []
  | item :: rest => write item :: writeItems rest

/-- The entries of a mapping. -/
def writeEntries : List (Atom × Value) → List String
  | [] => []
  | (key, value) :: rest => (writeKey key ++ ": " ++ write value) :: writeEntries rest

end

end FeedForward.Json
