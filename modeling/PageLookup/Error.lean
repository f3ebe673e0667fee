import PageLookup.Glob.Draft
import PageLookup.Settings.Error
import PageLookup.Text.Quoted

/-!
# Errors of a lookup

One constructor for each cause, and one wording for each constructor.
-/

set_option autoImplicit false

namespace PageLookup

inductive LookupError where
  | invalidPattern (cause : Glob.CompileError)
  | settings (cause : SettingsError)
  | emptyDatabase
  | unsupportedPlatform (platform : String)
  | commonIsNotPlatform
  | pageNotFound (name : String)
  deriving DecidableEq, Repr

def LookupError.message : LookupError → String
  | .invalidPattern cause => "invalid search pattern: " ++ cause.message
  | .settings cause => "failed to load configuration: " ++ cause.detail
  | .emptyDatabase => "the page database is empty, update it first"
  | .unsupportedPlatform platform => "unsupported platform " ++ Text.quoted platform
  | .commonIsNotPlatform => "\"common\" is not a platform"
  | .pageNotFound name => "page " ++ Text.quoted name ++ " is not available"

end PageLookup
