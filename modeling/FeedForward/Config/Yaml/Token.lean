import FeedForward.Config.Yaml.Text

/-!
# Lexical elements of YAML

Indentation opens and closes block lists and mappings. A scalar or a bracketed collection
may turn out to be a key when a colon follows on the same line, so its place is kept until
then and the marks of a key are put in front of it afterwards. At most one such place is
kept for every depth of brackets. Where a line can only be a key, it has to be one.

The elements of a text reach up to its first fault. An element in front of which a key may
still be marked is not yet known, so a fault comes before such an element.
-/

namespace FeedForward.Yaml

/-- A lexical element. What cannot be read stands for the fault of reading it. -/
inductive Token where
  | documentStart
  | documentEnd
  | blockList
  | blockMapping
  | blockEnd
  | flowList
  | flowListEnd
  | flowMapping
  | flowMappingEnd
  | flowEntry
  | entry
  | key
  | value
  | scalar (text : String) (plain : Bool)
  | broken (fault : Fault)
  deriving DecidableEq

/-- A place at which a key may have started. -/
structure KeyPlace where
  depth : Nat
  token : Nat
  required : Bool
  line : Nat
  column : Nat
  offset : Nat

/-- A text that has been scanned up to some place. -/
structure Scan where
  rest : List Char
  line : Nat
  column : Nat
  offset : Nat
  /-- How many brackets are open. -/
  depth : Nat
  /-- The columns of the open blocks, innermost first. -/
  indents : List Int
  keyAllowed : Bool
  keys : List KeyPlace
  tokens : Array Token

namespace Scan

/-- The place before a text. -/
def start (text : List Char) : Scan where
  rest := text
  line := 0
  column := 0
  offset := 0
  depth := 0
  indents := []
  keyAllowed := true
  keys := []
  tokens := #[]

/-- The column of the innermost open block. -/
def indent (s : Scan) : Int := s.indents.headD (-1)

/-- One character further. A byte order mark takes no column. -/
def pass (s : Scan) (c : Char) : Scan :=
  if isBreak c then { s with line := s.line + 1, column := 0, offset := s.offset + 1 }
  else if c = '\ufeff' then { s with offset := s.offset + 1 }
  else { s with column := s.column + 1, offset := s.offset + 1 }

/-- The place in front of what is left. -/
def moveTo (s : Scan) (left : List Char) : Scan :=
  { (s.rest.take (s.rest.length - left.length)).foldl pass s with rest := left }

/-- One more element. -/
def add (s : Scan) (token : Token) : Scan := { s with tokens := s.tokens.push token }

/-- What is left behind blanks, comments and line ends, and whether a line ended. -/
def skipBlank (inComment : Bool) : List Char → List Char × Bool
  | [] => ([], false)
  | c :: rest =>
    if isBreak c then ((skipBlank false rest).1, true)
    else if inComment || c = ' ' then skipBlank inComment rest
    else if c = '#' then skipBlank true rest
    else (c :: rest, false)

/-- Passes over blanks, comments and line ends. Outside brackets a new line may start with a
key. -/
def skip (s : Scan) : Scan :=
  let (left, newLine) := skipBlank false s.rest
  let s := s.moveTo left
  if newLine && s.depth = 0 then { s with keyAllowed := true } else s

/-- Gives up the places of keys for which some condition holds. -/
def giveUp (s : Scan) (gone : KeyPlace → Bool) : Except Fault Scan :=
  if s.keys.any fun key => gone key && key.required then .error .invalidYaml
  else .ok { s with keys := s.keys.filter fun key => !gone key }

/-- Whether a place is on an earlier line or too far in front. -/
def isStale (s : Scan) (key : KeyPlace) : Bool :=
  key.line ≠ s.line || 1024 < s.offset - key.offset

/-- Gives up places on earlier lines or too far in front. -/
def giveUpStale (s : Scan) : Except Fault Scan := s.giveUp s.isStale

/-- The elements in front of which no key can be marked any more. -/
def settled (s : Scan) : List Token :=
  let held := (s.keys.filter fun key => !s.isStale key).map KeyPlace.token
  s.tokens.toList.take (held.foldl min s.tokens.size)

/-- Gives up the place at this depth of brackets. -/
def giveUpHere (s : Scan) : Except Fault Scan := s.giveUp fun key => key.depth = s.depth

/-- Keeps this place, if a key may start here. -/
def keepPlace (s : Scan) : Except Fault Scan :=
  if s.keyAllowed then do
    let s ← s.giveUpHere
    return { s with keys :=
      { depth := s.depth
        token := s.tokens.size
        required := s.depth = 0 && s.indent = s.column
        line := s.line, column := s.column, offset := s.offset } :: s.keys }
  else .ok s

/-- Closes the blocks that are indented further than a column. -/
def closeBlocks (s : Scan) (column : Int) : Scan :=
  let closed := s.indents.takeWhile fun indent => column < indent
  { s with
    indents := s.indents.drop closed.length
    tokens := s.tokens ++ Array.replicate closed.length Token.blockEnd }

/-- Opens a block in front of an element, if a column is indented further than the blocks
that are open. -/
def openBlock (s : Scan) (column : Nat) (token : Token) (index : Nat) : Scan :=
  if s.indent < column then
    { s with
      indents := column :: s.indents
      tokens := s.tokens.toList.insertIdx index token |>.toArray }
  else s

/-- An element outside brackets that only a place for a key can hold. -/
def blockMark (s : Scan) (block mark : Token) (left : List Char) : Except Fault Scan := do
  if s.depth = 0 && !s.keyAllowed then throw .invalidYaml
  let opened := if s.depth = 0 then s.openBlock s.column block s.tokens.size else s
  let s ← opened.giveUpHere
  return (s.add mark).moveTo left

/-- The mark of a value: the place kept at this depth, if there is one, becomes the key. -/
def valueMark (s : Scan) (left : List Char) : Except Fault Scan := do
  match s.keys.find? fun key => key.depth = s.depth with
  | some key =>
    let marked := { s with
      keys := s.keys.filter fun key => key.depth ≠ s.depth
      tokens := s.tokens.toList.insertIdx key.token Token.key |>.toArray }
    let opened := if s.depth = 0 then marked.openBlock key.column .blockMapping key.token
      else marked
    return { (opened.add .value).moveTo left with keyAllowed := false }
  | none =>
    let s ← s.blockMark .blockMapping .value left
    return { s with keyAllowed := s.depth = 0 }

/-- The start of a bracketed collection. -/
def openFlow (s : Scan) (token : Token) (left : List Char) : Except Fault Scan := do
  let s ← s.keepPlace
  return { (s.add token).moveTo left with depth := s.depth + 1, keyAllowed := true }

/-- The end of a bracketed collection. -/
def closeFlow (s : Scan) (token : Token) (left : List Char) : Except Fault Scan := do
  if s.depth = 0 then throw .invalidYaml
  let s ← s.giveUpHere
  return { (s.add token).moveTo left with depth := s.depth - 1, keyAllowed := false }

/-- The mark that starts or ends a document. -/
def documentMark (s : Scan) (token : Token) : Except Fault Scan := do
  let s ← (s.closeBlocks (-1)).giveUpHere
  return { (s.add token).moveTo (s.rest.drop 3) with keyAllowed := false }

/-- A scalar without quotes. -/
def plainScalar (s : Scan) : Except Fault Scan := do
  let s ← s.keepPlace
  let (text, left, crossed) := readPlain (0 < s.depth) (s.indent + 1) s.rest
  return { (s.add (.scalar (String.ofList text) true)).moveTo left with keyAllowed := crossed }

/-- A scalar in quotes. -/
def quotedScalar (s : Scan) (quote : Char) (inside : List Char) : Except Fault Scan := do
  let s ← s.keepPlace
  let (text, left) ← readQuoted quote inside
  return { (s.add (.scalar (String.ofList text) false)).moveTo left with keyAllowed := false }

/-- Whether a scalar without quotes may start with a character in front of some text. -/
def startsPlain (inFlow : Bool) (c : Char) (rest : List Char) : Bool :=
  if isGap c || "-?:,[]\x7b\x7d#&*!|>'\"%@\x60".toList.contains c then
    !startsGap rest && (c = '-' || (!inFlow && (c = '?' || c = ':')))
  else true

/-- The next element. -/
def next (s : Scan) : Except Fault Scan :=
  match s.rest with
  | [] => .ok s
  | c :: left =>
    let inFlow := decide (0 < s.depth)
    if s.column = 0 && startsMark '-' s.rest then s.documentMark .documentStart
    else if s.column = 0 && startsMark '.' s.rest then s.documentMark .documentEnd
    else if s.column = 0 && c = '%' then .error .invalidYaml
    else if c = '[' then s.openFlow .flowList left
    else if c = '\x7b' then s.openFlow .flowMapping left
    else if c = ']' then s.closeFlow .flowListEnd left
    else if c = '\x7d' then s.closeFlow .flowMappingEnd left
    else if c = ',' then do
      let s ← s.giveUpHere
      return { (s.add .flowEntry).moveTo left with keyAllowed := true }
    else if c = '-' && startsGap left then do
      return { (← s.blockMark .blockList .entry left) with keyAllowed := true }
    else if c = '?' && (inFlow || startsGap left) then do
      return { (← s.blockMark .blockMapping .key left) with keyAllowed := !inFlow }
    else if c = ':' && (inFlow || startsGap left) then s.valueMark left
    else if c = '\'' || c = '"' then s.quotedScalar c left
    else if startsPlain inFlow c left then s.plainScalar
    else .error .invalidYaml

/-- The elements of all that is left, up to the first fault. -/
def toEnd (s : Scan) : List Token :=
  match s.skip.giveUpStale with
  | .error fault => s.settled ++ [.broken fault]
  | .ok here =>
    let here := if here.depth = 0 then here.closeBlocks here.column else here
    if here.rest.isEmpty then
      match (here.closeBlocks (-1)).giveUpHere with
      | .error fault => s.settled ++ [.broken fault]
      | .ok last => last.tokens.toList
    else
      match here.next with
      | .error fault => s.settled ++ [.broken fault]
      | .ok after =>
        if after.rest.length < s.rest.length then toEnd after
        else s.settled ++ [.broken .invalidYaml]
termination_by s.rest.length

end Scan

/-- Whether a character may occur in a text at all. -/
def isAllowed (c : Char) : Bool :=
  c = '\t' || c = '\n' || c = '\r' || c = '\x85' || (' ' ≤ c && c ≤ '~') ||
    ('\xa0' ≤ c && c ≤ '\ufffd') || 0x10000 ≤ c.toNat

/-- The lexical elements of a text, behind a byte order mark if there is one. -/
def tokens (text : String) : List Token :=
  if text.toList.all isAllowed then
    match text.toList with
    | '\ufeff' :: rest => (Scan.start rest).toEnd
    | rest => (Scan.start rest).toEnd
  else [.broken .invalidYaml]

end FeedForward.Yaml
