import FeedForward.Config.Yaml.Node
import FeedForward.Config.Yaml.Token

/-!
# YAML

Reading values from the part of YAML that configurations use: lists and mappings in block
and in bracketed form, scalars plain and in quotes, comments, and the marks of a single
document. What is left out of a list or a mapping stands for nothing. The parts of a document
are found first; they are read as values when there is nothing but one document.
-/

namespace FeedForward.Yaml

/-- A part of a document and the elements behind it. -/
abbrev Parsed := Except Fault (Node × List Token)

/-- The fault of elements of which the first is not expected: its own if it has one. -/
def unexpected : List Token → Fault
  | .broken fault :: _ => fault
  | _ => .invalidYaml

/-- Whether an element ends a value in a block mapping. -/
def endsBlockValue : Token → Bool
  | .key | .value | .blockEnd => true
  | _ => false

/-- Whether an element ends a value between brackets. -/
def endsFlowValue : Token → Bool
  | .value | .flowEntry | .flowListEnd | .flowMappingEnd => true
  | _ => false

mutual

/-- A part of a document. A list whose entries are not indented further than the mapping around it is
only possible as a part of that mapping. -/
def value (fuel : Nat) (sameIndent : Bool) (tokens : List Token) : Parsed :=
  match fuel, tokens with
  | _ + 1, .scalar text plain :: rest => .ok (.scalar text plain, rest)
  | fuel + 1, .flowList :: rest => flowItems fuel true [] rest
  | fuel + 1, .flowMapping :: rest => flowEntries fuel true [] rest
  | fuel + 1, .blockList :: rest => blockItems fuel [] rest
  | fuel + 1, .blockMapping :: rest => blockEntries fuel [] rest
  | fuel + 1, .entry :: rest =>
    if sameIndent then plainItems fuel [] (.entry :: rest) else .error .invalidYaml
  | _, _ => .error (unexpected tokens)

/-- A part, or nothing if an element that ends it comes first. -/
def valueOrNull (fuel : Nat) (sameIndent : Bool) (ends : Token → Bool) (tokens : List Token) :
    Parsed :=
  match fuel with
  | 0 => .error .invalidYaml
  | fuel + 1 =>
    if tokens.head?.any ends then .ok (.null, tokens) else value fuel sameIndent tokens

/-- The items of a list in a block of its own. -/
def blockItems (fuel : Nat) (done : List Node) (tokens : List Token) : Parsed :=
  match fuel, tokens with
  | fuel + 1, .entry :: rest =>
    match valueOrNull fuel false (fun t => t = .entry || t = .blockEnd) rest with
    | .ok (item, rest) => blockItems fuel (item :: done) rest
    | .error fault => .error fault
  | _ + 1, .blockEnd :: rest => .ok (.list done.reverse, rest)
  | _, _ => .error (unexpected tokens)

/-- The items of a list in the block of the mapping around it. -/
def plainItems (fuel : Nat) (done : List Node) (tokens : List Token) : Parsed :=
  match fuel, tokens with
  | fuel + 1, .entry :: rest =>
    match valueOrNull fuel false (fun t => t = .entry || endsBlockValue t) rest with
    | .ok (item, rest) => plainItems fuel (item :: done) rest
    | .error fault => .error fault
  | _ + 1, rest => .ok (.list done.reverse, rest)
  | 0, _ => .error .invalidYaml

/-- The entries of a mapping in a block. -/
def blockEntries (fuel : Nat) (done : List (Node × Node)) (tokens : List Token) : Parsed :=
  match fuel, tokens with
  | fuel + 1, .key :: rest =>
    match valueOrNull fuel true endsBlockValue rest with
    | .ok (key, rest) => blockValue fuel done key rest
    | .error fault => .error fault
  | _ + 1, .blockEnd :: rest => .ok (.ofEntries done.reverse, rest)
  | _, _ => .error (unexpected tokens)

/-- The value of a key in a block, and the entries behind it. -/
def blockValue (fuel : Nat) (done : List (Node × Node)) (key : Node) (tokens : List Token) :
    Parsed :=
  match fuel with
  | 0 => .error .invalidYaml
  | fuel + 1 =>
    let found := match tokens with
      | .value :: rest => valueOrNull fuel true endsBlockValue rest
      | _ => .ok (.null, tokens)
    match found with
    | .error fault => .error fault
    | .ok (item, rest) => blockEntries fuel ((key, item) :: done) rest

/-- The items of a list in brackets. A key with a value is a mapping of its own. -/
def flowItems (fuel : Nat) (first : Bool) (done : List Node) (tokens : List Token) : Parsed :=
  match fuel, first, tokens with
  | _ + 1, _, .flowListEnd :: rest => .ok (.list done.reverse, rest)
  | fuel + 1, false, .flowEntry :: rest =>
    if rest.head? = some .flowListEnd then .ok (.list done.reverse, rest.drop 1)
    else flowItems fuel true done rest
  | fuel + 1, true, .key :: rest =>
    match valueOrNull fuel false endsFlowValue rest with
    | .error fault => .error fault
    | .ok (key, rest) =>
      match flowValue fuel rest with
      | .error fault => .error fault
      | .ok (item, rest) => flowItems fuel false (.ofEntries [(key, item)] :: done) rest
  | fuel + 1, true, rest =>
    match value fuel false rest with
    | .error fault => .error fault
    | .ok (item, rest) => flowItems fuel false (item :: done) rest
  | _, _, _ => .error (unexpected tokens)

/-- The value of a key between brackets. -/
def flowValue (fuel : Nat) (tokens : List Token) : Parsed :=
  match fuel, tokens with
  | fuel + 1, .value :: rest => valueOrNull fuel false endsFlowValue rest
  | _ + 1, rest => .ok (.null, rest)
  | 0, _ => .error .invalidYaml

/-- The entries of a mapping in brackets. A key may go without a value. -/
def flowEntries (fuel : Nat) (first : Bool) (done : List (Node × Node)) (tokens : List Token) :
    Parsed :=
  match fuel, first, tokens with
  | _ + 1, _, .flowMappingEnd :: rest => .ok (.ofEntries done.reverse, rest)
  | fuel + 1, false, .flowEntry :: rest =>
    if rest.head? = some .flowMappingEnd then .ok (.ofEntries done.reverse, rest.drop 1)
    else flowEntries fuel true done rest
  | fuel + 1, true, .key :: rest =>
    match valueOrNull fuel false endsFlowValue rest with
    | .error fault => .error fault
    | .ok (key, rest) =>
      match flowValue fuel rest with
      | .error fault => .error fault
      | .ok (item, rest) => flowEntries fuel false ((key, item) :: done) rest
  | fuel + 1, true, rest =>
    match value fuel false rest with
    | .error fault => .error fault
    | .ok (key, rest) => flowEntries fuel false ((key, .null) :: done) rest
  | _, _, _ => .error (unexpected tokens)

end

/-- The part in front of some elements, and what follows it. -/
def content (tokens : List Token) : Parsed := value (4 * tokens.length + 4) false tokens

/-- The content of a document and what follows it. Behind the mark that starts a document its
content may be left out. -/
def document : List Token → Parsed
  | [] => .ok (.null, [])
  | .documentStart :: rest =>
    match rest with
    | [] | .documentStart :: _ | .documentEnd :: _ => .ok (.null, rest)
    | _ => content rest
  | tokens => content tokens

/-- The value that a YAML text stands for. An empty text stands for nothing. -/
def read (text : String) : Except Fault Value := do
  let (found, rest) ← document (tokens text)
  match rest.dropWhile (· = .documentEnd) with
  | [] => found.read.toExcept
  | rest => throw (unexpected rest)

end FeedForward.Yaml
