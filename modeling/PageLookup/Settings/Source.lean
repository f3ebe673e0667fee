import PageLookup.Settings.Error
import PageLookup.Settings.FileTree

/-!
# Sources of settings

A source is a text in a known format or a file. How it is read is up to a
backend, which is asked for it by a request.
-/

set_option autoImplicit false

namespace PageLookup

structure SettingsFile where
  path : Path
  required : Bool
  deriving DecidableEq, Repr

inductive Source (Format : Type) where
  | text (content : String) (format : Format)
  | file (f : SettingsFile)
  deriving DecidableEq, Repr

/-- A format that is given goes before the one that the file's name tells. -/
inductive Request (Format : Type) where
  | text (content : String) (format : Format)
  | file (path : Path) (format? : Option Format) (required : Bool)
  deriving DecidableEq, Repr

structure Files where
  tree : FileTree
  directory : Path
  deriving DecidableEq, Repr

structure Found (Format : Type) where
  path : Path
  bytes : List UInt8
  format : Format
  deriving DecidableEq, Repr

structure Layer (Document : Type) where
  document : Document
  origin : Option String
  deriving DecidableEq, Repr

/-- The variables that tell where a user's settings are. None of them need be set. -/
structure Environment where
  tldrConfig : Option Path
  xdgConfigHome : Option Path
  home : Option Path
  deriving DecidableEq, Repr

end PageLookup
