import PageLookup.Platform
import PageLookup.Settings.Backend

/-!
# Settings

Sources are merged over a document of defaults, and types are looked at once,
when all of them are merged. The values are gone through in the order in which
the backend gives them, and the first of a wrong type ends it.
-/

set_option autoImplicit false

namespace PageLookup

structure Settings where
  language : String
  platform : Option String
  deriving DecidableEq, Repr

def defaultDocument : String :=
  "# Language of the pages to look up.\n" ++
  "language: en\n" ++
  "\n" ++
  "# Platform whose pages are shown in addition to the common ones.\n" ++
  "# Leave unset to use the platform the program runs on.\n" ++
  "# platform: linux\n"

namespace Backend

variable (B : Backend)

def defaults : Request B.Format := .text defaultDocument B.yaml

/-- The format of a file follows its extension. One without any is YAML. -/
def formatOf? (path : Path) : Option B.Format :=
  match Path.extension? path with
  | some _ => none
  | none => some B.yaml

def request : Source B.Format → Request B.Format
  | .text content format => .text content format
  | .file f => .file f.path (B.formatOf? f.path) f.required

def textAt (key : String) (v : B.Value) : Except SettingsError String :=
  (B.text v).mapError (.notText key · (B.origin v))

/-- The document of defaults reads as one entry, the language. -/
structure ReadsDefaults : Prop where
  read_defaults : ∃ d, B.read B.yaml defaultDocument = .ok d ∧
    B.shape? d languageKey = some (.text "en") ∧ B.shape? d platformKey = none ∧ B.Flat d

end Backend

/-- The fields that were come by. Null leaves the platform open. -/
structure Fields where
  language : Option String
  platform : Option (Option String)

namespace Settings

variable (B : Backend)

def readField (f : Fields) (entry : String × B.Value) : Except SettingsError Fields :=
  let (key, v) := entry
  if key = Backend.languageKey then
    (B.textAt key v).map fun t => { f with language := some t }
  else if key = Backend.platformKey then
    if B.isNull v then .ok { f with platform := some none }
    else (B.textAt key v).map fun t => { f with platform := some (some t) }
  else .ok f

def ofEntries (entries : List (String × B.Value)) : Except SettingsError Settings :=
  (entries.foldlM (readField B) ⟨none, none⟩).bind fun f =>
    match f.language with
    | some language => .ok ⟨language, f.platform.getD none⟩
    | none => .error (.missing Backend.languageKey (B.missing Backend.languageKey))

def ofRequests (files : Files) (rs : List (Request B.Format)) : Except SettingsError Settings :=
  (B.build files rs).bind fun c => ofEntries B (B.entries c)

def load (files : Files) (sources : List (Source B.Format)) : Except LookupError Settings :=
  (ofRequests B files (B.defaults :: sources.map B.request)).mapError .settings

/-- The settings without any source, which have to load. -/
def default (files : Files) : Except SettingsError Settings := ofRequests B files [B.defaults]

def effectivePlatform (s : Settings) : Except LookupError String := Platform.resolve s.platform

end Settings

end PageLookup
