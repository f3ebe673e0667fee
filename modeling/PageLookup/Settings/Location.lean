import PageLookup.Record
import PageLookup.Settings.Basic
import PageLookup.Text.Quoted

/-!
# Where a user's settings are

A path given for the settings file goes before everything else, even an empty
one. Otherwise the file has its place below the user's directory of
configuration. A user of whom no such directory is known has no settings.
-/

set_option autoImplicit false

namespace PageLookup.Settings

variable (B : Backend)

def location? (env : Environment) : Option Path :=
  match env.tldrConfig with
  | some path => some path
  | none => (B.configDirectory? env).map fun d =>
      Path.join (Path.join d (Text.encode "tldr")) (Text.encode "config.yaml")

def defaultFile? (env : Environment) : Option SettingsFile := (location? B env).map (⟨·, false⟩)

def defaultSources (env : Environment) : List (Source B.Format) :=
  ((defaultFile? B env).map Source.file).toList

def loadDefault (files : Files) (env : Environment) : Except LookupError Settings :=
  load B files (defaultSources B env)

def describeFile : Option SettingsFile → String
  | some f => "Some(File(SourceFile \x7b path: " ++ Text.quotedBytes f.path ++ ", required: "
      ++ (if f.required then "true" else "false") ++ " \x7d))"
  | none => "None"

def defaultRecord (env : Environment) : Record :=
  ⟨.debug, "tldr::settings", "loading settings from " ++ describeFile (defaultFile? B env)⟩

end PageLookup.Settings
