import FeedForward.Config.Json
import FeedForward.Config.Yaml
import FeedForward.Path
import FeedForward.Text.Case

/-!
# Configuration files

A configuration is read from a YAML or a JSON file, told apart by the ending of the file's
name in any case. An empty file stands for an empty configuration, and so does a YAML file
whose value is empty or zero. A configuration is a mapping with a section for the data, one
for the network and one for the training run.
-/

namespace FeedForward.ConfigFile

/-- The sections that a configuration has to have, in alphabetical order. -/
def requiredSections : List String := ["data", "model", "train"]

/-- A text whose lines all end in the same way. -/
def withPlainLineEnds : List Char → List Char
  | '\r' :: '\n' :: rest => '\n' :: withPlainLineEnds rest
  | '\r' :: rest => '\n' :: withPlainLineEnds rest
  | c :: rest => c :: withPlainLineEnds rest
  | [] => []

/-- What the text of a file stands for, given the ending of its name. -/
def readText (ending text : String) : Except Fault Value :=
  match Text.lower ending with
  | ".yaml" | ".yml" => do
    let value ← Yaml.read text
    return if value.isTrue then value else .mapping []
  | ".json" => if text.isEmpty then .ok (.mapping []) else Json.read text
  | _ => .error (.fileType ending)

/-- The configuration in a file with some text; a file that does not exist has none. -/
def load (path : String) (text : Option String) : Except Fault Value := do
  let name := Path.fileName (← Path.check path)
  match text with
  | none => throw .noSuchFile
  | some text =>
    match ← readText (Path.ending name) (String.ofList (withPlainLineEnds text.toList)) with
    | .mapping entries =>
      let missing := requiredSections.filter fun key => (Value.lookup entries key).isNone
      if !missing.isEmpty then throw (.missingSections name missing)
      return .mapping entries
    | _ => throw (.notAMapping name)

end FeedForward.ConfigFile
