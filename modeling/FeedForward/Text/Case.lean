import FeedForward.Text.CaseContext
import FeedForward.Text.CaseTable

/-!
# Upper and lower case of whole texts

Names are compared after a change of case, and some names reach the output in lower
case. Both directions follow the full Unicode rules: a character may become several,
and a capital sigma takes its final form at the end of a word.
-/

namespace FeedForward.Text

/-- The upper case of one character. -/
def upperChar (c : Char) : List Char :=
  if c.toNat < 128 then [c.toUpper]
  else match upperSequences.find? fun entry => entry.1 == c.toNat with
  | some (_, codes) => codes.map Char.ofNat
  | none => [((CaseRun.find? upperRuns c.toNat).map Char.ofNat).getD c]

/-- The lower case of one character that is not a capital sigma. -/
def lowerChar (c : Char) : List Char :=
  if c.toNat < 128 then [c.toLower]
  else if c.toNat = 304 then [Char.ofNat 105, Char.ofNat 775]
  else [((CaseRun.find? lowerRuns c.toNat).map Char.ofNat).getD c]

/-- Whether the first character that counts in a text is cased. -/
def startsCased (s : List Char) : Bool := (s.find? fun c => !isPassed c).any isCased

/-- The lower case of a text, given whether the last character that counts in front of it is
cased. -/
def lowerFrom (afterCased : Bool) : List Char → List Char
  | [] => []
  | c :: rest =>
    if c.toNat = 931 then
      let isFinal := afterCased && !startsCased rest
      Char.ofNat (if isFinal then 962 else 963) :: lowerFrom true rest
    else lowerChar c ++ lowerFrom (if isPassed c then afterCased else isCased c) rest

/-- The upper case of a text. -/
def upper (s : String) : String := String.ofList (s.toList.flatMap upperChar)

/-- The lower case of a text. -/
def lower (s : String) : String := String.ofList (lowerFrom false s.toList)

end FeedForward.Text
