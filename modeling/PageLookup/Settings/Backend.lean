import PageLookup.Settings.Shape
import PageLookup.Settings.Source

/-!
# What settings rest on

A backend reads documents, finds files, merges what sources hold and knows the
directories of a user. Settings ask it and take its answers as they are, so
whatever they rely on is an assumption about the backend with a name of its own.
-/

set_option autoImplicit false

namespace PageLookup

structure Backend where
  Format : Type
  toml : Format
  json : Format
  yaml : Format
  ofExtension? : String → Option Format
  Real : Type
  writeReal : Real → String
  Document : Type
  blank : Document
  keys : Document → List String
  shape? : Document → String → Option (Shape Real)
  read : Format → String → Except DocumentFault Document
  decode : List UInt8 → String
  find : Files → Path → Option Format → Except FileFault (Found Format)
  /-- How messages name a file. -/
  name : Files → Path → String
  collect : Files → Request Format → Except SettingsError (Layer Document)
  Config : Type
  empty : Config
  overlay : Config → Layer Document → Config
  build : Files → List (Request Format) → Except SettingsError Config
  Value : Type
  /-- The values by their keys, in the order in which they are gone through. -/
  entries : Config → List (String × Value)
  entries_nodup : ∀ c, ((entries c).map Prod.fst).Nodup
  shape : Value → Shape Real
  origin : Value → Option String
  isNull : Value → Bool
  /-- The text of a value, or how messages call a value that has none. -/
  text : Value → Except String String
  /-- The wording for a key that has no value and needs one. -/
  missing : String → String
  /-- A key that leads below the entry of a name. -/
  LeadsBelow : String → String → Prop
  configDirectory? : Environment → Option Path

namespace Backend

def languageKey : String := "language"

def platformKey : String := "platform"

variable (B : Backend)

def shapeAt (c : B.Config) (key : String) : Option (Shape B.Real) :=
  ((B.entries c).lookup key).map B.shape

/-- No other key of the document leads below one of the two. -/
def Flat (d : B.Document) : Prop :=
  ∀ key ∈ B.keys d, key ≠ languageKey → key ≠ platformKey →
    ¬B.LeadsBelow key languageKey ∧ ¬B.LeadsBelow key platformKey

/-- Sources are collected and merged one after another. The first that cannot be collected ends
it. -/
structure MergesInOrder : Prop where
  build_nil : ∀ files, B.build files [] = .ok B.empty
  build_concat : ∀ files rs r, B.build files (rs ++ [r]) =
    (B.build files rs).bind fun c => (B.collect files r).map (B.overlay c)

def layerOf (format : B.Format) (content : String) (origin : Option String) :
    Except SettingsError (Layer B.Document) :=
  ((B.read format content).mapError (.document · origin)).map (⟨·, origin⟩)

/-- A source is a text or the text of the file that is found. A file that need not be there and is
not found holds nothing. -/
structure CollectsSources : Prop where
  collect_text : ∀ files content format,
    B.collect files (.text content format) = B.layerOf format content none
  collect_file : ∀ files path format? required found,
    B.find files path format? = .ok found →
      B.collect files (.file path format? required) =
        B.layerOf found.format (B.decode found.bytes) (some (B.name files found.path))
  collect_missing : ∀ files path format? required fault,
    B.find files path format? = .error fault →
      B.collect files (.file path format? required) =
        if required then .error (.file fault) else .ok ⟨B.blank, none⟩

/-- A value takes the place of the one before it, and no value gets lost. -/
structure ReplacesValues : Prop where
  shapeAt_empty : ∀ key, B.shapeAt B.empty key = none
  shapeAt_overlay : ∀ c d origin, B.Flat d → ∀ key ∈ [languageKey, platformKey],
    B.shapeAt (B.overlay c ⟨d, origin⟩) key = (B.shape? d key).or (B.shapeAt c key)
  isSome_overlay : ∀ c layer, ∀ key ∈ [languageKey, platformKey],
    (B.shapeAt c key).isSome = true → (B.shapeAt (B.overlay c layer) key).isSome = true

structure PassesBlanks : Prop where
  overlay_blank : ∀ c origin, B.overlay c ⟨B.blank, origin⟩ = c

/-- Scalars become their text, and nothing else has one. A real number is written in digits, unless
it is infinite or none. -/
structure ReadsScalars : Prop where
  text_eq_ok_iff : ∀ v t, B.text v = .ok t ↔ (B.shape v).scalar? B.writeReal = some t
  isNull_iff : ∀ v, B.isNull v = true ↔ B.shape v = .unit
  writeReal_chars : ∀ x, ∀ c ∈ (B.writeReal x).toList, c.isDigit = true ∨ c ∈ ".-infNaN".toList

def extensionFormat? (path : Path) : Option B.Format :=
  (Path.extension? path).bind fun e => B.ofExtension? (Text.decode e)

/-- A file that is found is there. The very path goes before all others. -/
structure FindsFiles : Prop where
  read_of_find : ∀ files path format? found, B.find files path format? = .ok found →
    files.tree.read? found.path = some found.bytes
  find_of_read : ∀ files path format? bytes format,
    let full := Path.join files.directory path
    files.tree.read? full = some bytes → format?.or (B.extensionFormat? full) = some format →
      B.find files path format? = .ok ⟨full, bytes, format⟩
  ofExtension_toml : B.ofExtension? "toml" = some B.toml
  ofExtension_json : B.ofExtension? "json" = some B.json
  ofExtension_yaml : B.ofExtension? "yaml" = some B.yaml
  ofExtension_yml : B.ofExtension? "yml" = some B.yaml

structure DecodesFiles : Prop where
  decode_eq : ∀ bytes, B.decode bytes = Text.decodeFile bytes

/-- The user's directory of configuration is the one that is set, if it is absolute, and otherwise
it has its place in the home directory. -/
structure LocatesDirectory : Prop where
  directory_of_absolute : ∀ env d, env.xdgConfigHome = some d → Path.isAbsolute d = true →
    B.configDirectory? env = some d
  directory_of_home : ∀ env h, (∀ d, env.xdgConfigHome = some d → Path.isAbsolute d = false) →
    env.home = some h → h ≠ [] →
      B.configDirectory? env = some (Path.join h (Text.encode ".config"))

end Backend

end PageLookup
