import PageLookup.Settings.Path

/-!
# What can be wrong with settings

A source fails by its document or by its file, and a value by its type. What
comes from a file names the file.
-/

set_option autoImplicit false

namespace PageLookup

/-- Why a text holds no document. The wording of a malformed one is its reader's. -/
inductive DocumentFault where
  | malformed (cause : String)
  | manyDocuments (count : Nat)
  | rootNotMap (found : String)
  deriving DecidableEq, Repr

inductive FileFault where
  | notFound (path : Path)
  | unsupportedFormat (path : Path)
  deriving DecidableEq, Repr

inductive SettingsError where
  | document (fault : DocumentFault) (origin : Option String)
  | file (fault : FileFault)
  | notText (key found : String) (origin : Option String)
  | missing (key detail : String)
  deriving DecidableEq, Repr

def inOrigin (origin : Option String) : String :=
  match origin with
  | some file => " in " ++ file
  | none => ""

/-- A root of the wrong type is a wrong type in a wrong document, and names the file for both. -/
def DocumentFault.detail (origin : Option String) : DocumentFault → String
  | .malformed cause => cause ++ inOrigin origin
  | .manyDocuments count => s!"Got {count} YAML documents, expected 1" ++ inOrigin origin
  | .rootNotMap found =>
    "invalid type: " ++ found ++ ", expected a map" ++ inOrigin origin ++ inOrigin origin

def FileFault.detail : FileFault → String
  | .notFound path => "configuration file \"" ++ Text.decode path ++ "\" not found"
  | .unsupportedFormat path =>
    "configuration file \"" ++ Text.decode path ++ "\" is not of a supported file format"

def SettingsError.detail : SettingsError → String
  | .document fault origin => fault.detail origin
  | .file fault => fault.detail
  | .notText key found origin =>
    "invalid type: " ++ found ++ ", expected a string for key `" ++ key ++ "`" ++ inOrigin origin
  | .missing _ detail => detail

end PageLookup
