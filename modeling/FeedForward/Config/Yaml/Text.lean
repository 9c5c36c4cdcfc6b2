import FeedForward.Config.Json

/-!
# Scalars in YAML text

A scalar may go over several lines. A single line end inside it counts as a blank and
further ones stay; blanks around line ends are left out. A scalar without quotes ends
before a comment, before a colon with a blank behind it, where a line is indented too
little, and inside brackets before a bracket or a comma. In single quotes a quote is
written twice, in double quotes a backslash escapes.
-/

namespace FeedForward.Yaml

/-- Whether a character ends a line. -/
def isBreak (c : Char) : Bool :=
  c = '\n' || c = '\r' || c = '\x85' || c = '\u2028' || c = '\u2029'

/-- Whether a character is a blank, a tab or the end of a line. -/
def isGap (c : Char) : Bool := c = ' ' || c = '\t' || isBreak c

/-- Whether a text is at its end or starts with a gap. -/
def startsGap : List Char → Bool
  | [] => true
  | c :: _ => isGap c

/-- Whether a line starts with the mark of a document. -/
def startsMark (mark : Char) : List Char → Bool
  | a :: b :: c :: rest => a = mark && b = mark && c = mark && startsGap rest
  | _ => false

/-- Whether a line starts or ends a document. -/
def startsDocument (s : List Char) : Bool := startsMark '-' s || startsMark '.' s

/-- The end of a line as text: the ordinary ends count as one. -/
def breakText (c : Char) : Char := if c = '\u2028' || c = '\u2029' then c else '\n'

/-- What line ends inside a scalar stand for: the first one and those that follow. -/
def folded (first : Char) (others : List Char) : List Char :=
  if breakText first ≠ '\n' then breakText first :: others
  else if others.isEmpty then [' ']
  else others

/-- Characters that end a scalar without quotes inside brackets. -/
def isFlowMark (c : Char) : Bool := ",?[]\x7b\x7d".toList.contains c

/-- Whether a scalar without quotes ends before a text. -/
def endsPlain (inFlow : Bool) : List Char → Bool
  | [] => true
  | ':' :: rest =>
    startsGap rest || (inFlow && rest.head?.any fun c => c != '?' && isFlowMark c)
  | c :: _ => isGap c || (inFlow && isFlowMark c)

/-- The part of a scalar without quotes up to the next gap. -/
def plainPart (inFlow : Bool) : List Char → List Char × List Char
  | [] => ([], [])
  | c :: rest =>
    if endsPlain inFlow (c :: rest) then ([], c :: rest)
    else
      let (part, left) := plainPart inFlow rest
      (c :: part, left)

/-- What lies between two parts of a scalar without quotes. -/
structure PlainGap where
  text : List Char
  left : List Char
  /-- The indentation of the line that was reached, if a line ended. -/
  indentation : Option Nat

/-- The line ends behind a first one with the blanks between them, what is left, and the
number of blanks in front of it; nothing if a document starts or ends there. -/
def moreBreaks : Nat → List Char → Option (List Char × List Char × Nat)
  | column, [] => some ([], [], column)
  | column, c :: rest =>
    if c = ' ' then moreBreaks (column + 1) rest
    else if isBreak c then
      if startsDocument rest then none
      else (moreBreaks 0 rest).map fun (breaks, left) => (breakText c :: breaks, left)
    else some ([], c :: rest, column)

/-- The gap in front of a text. A line at which a document starts or ends is not reached. -/
def plainGap (s : List Char) : PlainGap :=
  let blanks := s.takeWhile (· = ' ')
  match s.dropWhile (· = ' ') with
  | [] => ⟨blanks, [], none⟩
  | c :: rest =>
    if isBreak c then
      match if startsDocument rest then none else moreBreaks 0 rest with
      | some (breaks, left, column) => ⟨folded c breaks, left, some column⟩
      | none => ⟨[], rest, some 0⟩
    else ⟨blanks, c :: rest, none⟩

/-- A scalar without quotes: its text, what follows the gap behind it, and whether a line
ended in that gap. The column at which it starts and the least indentation of its further
lines are given. -/
def readPlain (inFlow : Bool) (least : Int) (s : List Char) : List Char × List Char × Bool :=
  let (part, afterPart) := plainPart inFlow s
  let gap := plainGap afterPart
  let ends := part.isEmpty || gap.text.isEmpty || gap.left.head? = some '#' ||
    (!inFlow && gap.indentation.any fun column => (column : Int) < least) ||
    endsPlain inFlow gap.left
  if ends then (part, gap.left, gap.indentation.isSome)
  else if gap.left.length < s.length then
    let (text, left, crossed) := readPlain inFlow least gap.left
    (part ++ gap.text ++ text, left, crossed)
  else (part, gap.left, gap.indentation.isSome)
termination_by s.length

/-- What a character behind a backslash stands for. -/
def escapes : List (Char × Char) :=
  [('0', '\x00'), ('a', '\x07'), ('b', '\x08'), ('t', '\t'), ('\t', '\t'), ('n', '\n'),
    ('v', '\x0b'), ('f', '\x0c'), ('r', '\r'), ('e', '\x1b'), (' ', ' '), ('"', '"'),
    ('\\', '\\'), ('/', '/'), ('N', '\x85'), ('_', '\xa0'), ('L', '\u2028'), ('P', '\u2029')]

/-- How many hexadecimal digits follow a character behind a backslash. -/
def codeLength? : Char → Option Nat
  | 'x' => some 2
  | 'u' => some 4
  | 'U' => some 8
  | _ => none

/-- The number of an escape that gives one, behind the backslash, and what follows it. -/
def readCode : List Char → Option (Nat × List Char)
  | [] => none
  | c :: rest => do
    let count ← codeLength? c
    let digits := rest.take count
    if digits.length < count then none
    else
      let code ← digits.foldlM (fun n d => (Json.hexValue? d).map fun v => n * 16 + v) 0
      return (code, rest.drop count)

/-- The character with a number. -/
def characterOf (code : Nat) : Except Fault Char :=
  if 0x7fffffff < code then .error .tooLarge
  else if 0x10ffff < code then .error .notANumeral
  else .ok (Text.ofUnit code)

/-- What an escape stands for, and what follows it; a line end is escaped elsewhere. -/
def readEscape : List Char → Except Fault (Char × List Char)
  | [] => .error .invalidYaml
  | c :: rest =>
    match escapes.lookup c, readCode (c :: rest) with
    | some meant, _ => .ok (meant, rest)
    | none, some (code, left) => (characterOf code).map fun meant => (meant, left)
    | none, none => .error .invalidYaml

/-- The line ends behind a first one inside quotes; no document may start or end there. -/
def quotedBreaks (fresh : Bool) : List Char → Except Fault (List Char × List Char)
  | [] => .ok ([], [])
  | c :: rest =>
    if fresh && startsDocument (c :: rest) then .error .invalidYaml
    else if c = ' ' || c = '\t' then quotedBreaks false rest
    else if isBreak c then
      (quotedBreaks true rest).map fun (breaks, left) => (breakText c :: breaks, left)
    else .ok ([], c :: rest)

/-- What comes next inside quotes: the closing quote, or some text. -/
inductive QuotedPiece where
  | closing (left : List Char)
  | text (meant left : List Char)

/-- A line end inside quotes, with what follows it. -/
def quotedBreak (meant : List Char → List Char) (left : List Char) : Except Fault QuotedPiece :=
  (quotedBreaks true left).map fun (breaks, left) => .text (meant breaks) left

/-- What comes next inside quotes. -/
def nextPiece (quote : Char) (s : List Char) : Except Fault QuotedPiece :=
  match s with
  | [] => .error .invalidYaml
  | c :: rest =>
    if c = quote then
      match rest with
      | '\'' :: left => .ok (if quote = '\'' then .text ['\''] left else .closing rest)
      | _ => .ok (.closing rest)
    else if c = '\\' ∧ quote = '"' then
      match rest with
      | [] => .error .invalidYaml
      | d :: left =>
        if isBreak d then quotedBreak id left
        else (readEscape rest).map fun (meant, left) => .text [meant] left
    else if isGap c then
      let blanks := s.takeWhile fun c => c = ' ' || c = '\t'
      match s.dropWhile fun c => c = ' ' || c = '\t' with
      | [] => .error .invalidYaml
      | d :: left =>
        if isBreak d then quotedBreak (folded d) left else .ok (.text blanks (d :: left))
    else .ok (.text [c] rest)

/-- The rest of a scalar in quotes, and what follows its closing quote. -/
def readQuoted (quote : Char) (s : List Char) : Except Fault (List Char × List Char) :=
  match nextPiece quote s with
  | .error fault => .error fault
  | .ok (.closing left) => .ok ([], left)
  | .ok (.text meant left) =>
    if left.length < s.length then
      (readQuoted quote left).map fun (text, left) => (meant ++ text, left)
    else .error .invalidYaml
termination_by s.length

end FeedForward.Yaml
