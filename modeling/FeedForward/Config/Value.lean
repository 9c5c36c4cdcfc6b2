import FeedForward.Config.Moment
import FeedForward.Decimal.Numeral
import FeedForward.Decimal.Written
import FeedForward.Fault

/-!
# Configuration values

A configuration is a tree of lists and mappings over atoms. Sections are read through
conversions that accept what a reader may reasonably write: numbers may stand in text,
truth values count as zero and one, and a mapping may be written as a list of pairs.
-/

namespace FeedForward

/-- A value without parts. -/
inductive Atom where
  | null
  | bool (b : Bool)
  | integer (n : Int)
  | number (x : Double)
  | moment (m : Moment)
  | text (s : String)
  deriving Inhabited

/-- A value of a configuration. Mappings keep the order in which their keys came in. -/
inductive Value where
  | atom (a : Atom)
  | list (items : List Value)
  | mapping (entries : List (Atom × Value))
  deriving Inhabited

namespace Atom

/-- The whole number that an atom counts as when keys are compared, if it counts as one. -/
def whole? : Atom → Option Int
  | bool b => some (if b then 1 else 0)
  | integer n => some n
  | number x => x.toInt?
  | null | moment _ | text _ => none

/-- Whether two atoms are the same key: whole numbers and truth values by their number, other
numbers by their word, where all that is no number is one key, and all else by what it is. -/
def sameKey (a b : Atom) : Bool :=
  match a.whole?, b.whole? with
  | some m, some n => m == n
  | none, none =>
    match a, b with
    | null, null => true
    | text s, text t => s == t
    | moment m, moment n => m.same n
    | number x, number y => x.word == y.word || (x.isNaN && y.isNaN)
    | _, _ => false
  | _, _ => false

/-- An atom as it looks inside a list or a mapping. -/
def inspect : Atom → String
  | null => "None"
  | bool b => if b then "True" else "False"
  | integer n => toString n
  | number x => Decimal.message x
  | moment m => m.inspect
  | text s => Text.quoted s

end Atom

namespace Value

/-- The value with nothing in it. -/
def null : Value := .atom .null

/-- A text as a value. -/
def text (s : String) : Value := .atom (.text s)

/-- A whole number as a value. -/
def integer (n : Int) : Value := .atom (.integer n)

/-- A number as a value. -/
def number (x : Double) : Value := .atom (.number x)

/-- A truth value as a value. -/
def bool (b : Bool) : Value := .atom (.bool b)

/-- A mapping with texts as keys. -/
def object (entries : List (String × Value)) : Value :=
  .mapping (entries.map fun entry => (.text entry.1, entry.2))

/-- The entries with one key set: in its place if it is there, at the end otherwise. -/
def put (key : Atom) (value : Value) : List (Atom × Value) → List (Atom × Value)
  | [] => [(key, value)]
  | entry :: rest =>
    if entry.1.sameKey key then (entry.1, value) :: rest else entry :: put key value rest

/-- The value under a key. -/
def lookup (entries : List (Atom × Value)) (key : String) : Option Value :=
  (entries.find? fun entry => entry.1.sameKey (.text key)).map Prod.snd

mutual

/-- A value as it looks inside a list or a mapping. -/
def inspect : Value → String
  | atom a => a.inspect
  | list items => "[" ++ ", ".intercalate (inspectItems items) ++ "]"
  | mapping entries => "\x7b" ++ ", ".intercalate (inspectEntries entries) ++ "\x7d"

/-- The items of a list. -/
def inspectItems : List Value → List String
  | [] => []
  | item :: rest => inspect item :: inspectItems rest

/-- The entries of a mapping. -/
def inspectEntries : List (Atom × Value) → List String
  | [] => []
  | (key, value) :: rest => (key.inspect ++ ": " ++ inspect value) :: inspectEntries rest

end

/-- A value as text; a text is shown as it is. -/
def shown : Value → String
  | atom (.text s) => s
  | atom (.moment m) => m.text
  | value => value.inspect

/-- Whether an atom can be shown: a whole number may not have too many digits. -/
def isShort : Atom → Bool
  | .integer n => n.natAbs < Nat.pow 10 Decimal.digitLimit
  | .null | .bool _ | .number _ | .moment _ | .text _ => true

mutual

/-- Whether all parts of a value can be shown. -/
def isShowable : Value → Bool
  | atom a => isShort a
  | list items => areShowable items
  | mapping entries => haveShowable entries

/-- Whether all items of a list can be shown. -/
def areShowable : List Value → Bool
  | [] => true
  | item :: rest => isShowable item && areShowable rest

/-- Whether all entries of a mapping can be shown. -/
def haveShowable : List (Atom × Value) → Bool
  | [] => true
  | (key, value) :: rest => isShort key && isShowable value && haveShowable rest

end

/-- A value as text, if it can be shown. -/
def toText (value : Value) : Except Fault String :=
  if value.isShowable then .ok value.shown else .error .notANumeral

/-- Whether a value counts as true: it is neither null, zero nor empty. -/
def isTrue : Value → Bool
  | atom .null => false
  | atom (.bool b) => b
  | atom (.integer n) => n != 0
  | atom (.number x) => !x.equals 0
  | atom (.moment _) => true
  | atom (.text s) => s != ""
  | list items => !items.isEmpty
  | mapping entries => !entries.isEmpty

/-- The double nearest to a whole number, unless it is beyond the range. -/
def ofInteger (n : Int) : Except Fault Double :=
  let x := Double.ofInt n
  if x.isFinite then .ok x else .error .tooLarge

/-- A value as a number. -/
def toNumber : Value → Except Fault Double
  | atom (.bool b) => .ok (if b then 1 else 0)
  | atom (.integer n) => ofInteger n
  | atom (.number x) => .ok x
  | atom (.text s) =>
    match Decimal.readNumber? s with
    | some x => .ok x
    | none => .error .notANumeral
  | atom .null | atom (.moment _) | list _ | mapping _ => .error .wrongKind

/-- The whole part of a double. -/
def truncate (x : Double) : Except Fault Int :=
  match Numeric.decodeBits x.word with
  | .nan => .error .notANumeral
  | .infinite _ => .error .tooLarge
  | .finite negative mantissa exponent =>
    let whole : Nat :=
      if 0 ≤ exponent then mantissa <<< exponent.toNat else mantissa >>> (-exponent).toNat
    .ok (if negative then -(whole : Int) else whole)

/-- A value as a whole number; the places of a number are cut off. -/
def toInteger : Value → Except Fault Int
  | atom (.bool b) => .ok (if b then 1 else 0)
  | atom (.integer n) => .ok n
  | atom (.number x) => truncate x
  | atom (.text s) =>
    match Decimal.readInteger? s with
    | some n => .ok n
    | none => .error .notANumeral
  | atom .null | atom (.moment _) | list _ | mapping _ => .error .wrongKind

/-- A value as the key of a mapping. -/
def toKey : Value → Except Fault Atom
  | atom a => .ok a
  | list _ | mapping _ => .error .wrongKind

/-- One item of a list of pairs as an entry. -/
def toEntry : Value → Except Fault (Atom × Value)
  | list [key, value] => return (← key.toKey, value)
  | mapping [(key, _), (value, _)] => .ok (key, .atom value)
  | atom (.text s) =>
    match s.toList with
    | [key, value] => .ok (.text (String.ofList [key]), text (String.ofList [value]))
    | _ => .error .notANumeral
  | list _ | mapping _ => .error .notANumeral
  | atom _ => .error .wrongKind

/-- A value as the entries of a mapping: a mapping itself or a list of pairs. -/
def toEntries : Value → Except Fault (List (Atom × Value))
  | mapping entries => .ok entries
  | list items => items.foldlM (fun entries item => do
      let (key, value) ← item.toEntry
      return put key value entries) []
  | atom (.text s) => if s.isEmpty then .ok [] else .error .notANumeral
  | atom _ => .error .wrongKind

end Value

end FeedForward
