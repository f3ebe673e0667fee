import PageLookup.Document.Json.Read
import PageLookup.Document.Toml.Read
import PageLookup.Document.Yaml.Read
import PageLookup.Settings.Error

/-!
# Document formats

Three formats are read into the same values. A YAML text without a document
counts as an empty map, and one with several documents is refused.
-/

set_option autoImplicit false

namespace PageLookup.Document

inductive Format where
  | toml
  | json
  | yaml
  deriving DecidableEq, Repr

def extensions : List (String × Format) := [
  ("toml", .toml),
  ("json", .json),
  ("yaml", .yaml),
  ("yml", .yaml)]

def Format.ofExtension? (extension : String) : Option Format := extensions.lookup extension

def Format.name : Format → String
  | .toml => "TOML"
  | .json => "JSON"
  | .yaml => "YAML"

def Format.orMalformed {α : Type} (format : Format) : Option α → Except DocumentFault α
  | some a => .ok a
  | none => .error (.malformed ("malformed " ++ format.name))

def ofNodes : List Yaml.Node → Except DocumentFault Value
  | [] => .ok (.map [])
  | [root] => Format.yaml.orMalformed root.toValue?
  | docs => .error (.manyDocuments docs.length)

def Format.read (format : Format) (text : String) : Except DocumentFault Value :=
  match format with
  | .toml => format.orMalformed (Toml.read text.toList)
  | .json => format.orMalformed (Json.read text.toList)
  | .yaml => (format.orMalformed (Yaml.read text.toList)).bind ofNodes

end PageLookup.Document
