import TreeProtocol.Schema.Json
import TreeProtocol.Schema.Yaml

/-!
# Schema files

The extension of a file's name tells the format of the schema in it. The extension is what follows
the last dot of the name, unless the name starts with that dot. The file is read before its
extension is looked at, so a file that cannot be read is reported as such whatever its name.
-/

namespace TreeProtocol.Schema

/-- The extension of the plain name of a file. -/
def extension? (name : String) : Option String :=
  let fromDot := name.toList.reverse.span (· ≠ '.')
  match fromDot with
  | (_, []) | (_, ['.']) => none
  | (reversed, _) => some (String.ofList reversed.reverse)

/-- Reads a schema from the text of a file with the given name. -/
def ofNamedText (name text : String) : Except BuildError Schema :=
  match extension? name with
  | some "json" => ofJsonText text
  | some "yaml" | some "yml" => ofYamlText text
  | _ => .error (Fault.unknownFormat name)

/-- Reads a schema from a file with the given name and content; without content there is no such
file. The content must be a text in UTF-8. -/
def ofFile (name : String) (content : Option ByteArray) : Except BuildError Schema :=
  match content.bind String.fromUTF8? with
  | some text => ofNamedText name text
  | none => .error Fault.unreadableFile

example : extension? "a.json.yaml" = some "yaml" := by decide +kernel
example : extension? ".yaml" = none ∧ extension? "..yaml" = some "yaml" := by decide +kernel
example : extension? "s." = some "" ∧ extension? "yaml" = none := by decide +kernel

end TreeProtocol.Schema
