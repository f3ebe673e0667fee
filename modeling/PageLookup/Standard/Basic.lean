import PageLookup.Document.Keys
import PageLookup.Standard.Lookup
import PageLookup.Standard.Overlay

/-!
# The backend that runs

Documents are YAML, TOML and JSON, and the directories of a user are found
through the variables alone.
-/

set_option autoImplicit false

namespace PageLookup.Standard

open PageLookup.Document PageLookup.Number

def ofValue (v : Value) (h : v.KeysOnce) : Except DocumentFault Entries :=
  match v, h with
  | .map values, h => .ok ⟨values, h⟩
  | v, _ => .error (.rootNotMap (describe v.shape))

def read (format : Format) (content : String) : Except DocumentFault Entries :=
  match h : format.read content with
  | .ok v => ofValue v (format.read_keysOnce content v h)
  | .error fault => .error fault

def layerOf (format : Format) (content : String) (origin : Option String) :
    Except SettingsError (Layer Entries) :=
  ((read format content).mapError (.document · origin)).map (⟨·, origin⟩)

def collect (files : Files) : Request Format → Except SettingsError (Layer Entries)
  | .text content format => layerOf format content none
  | .file path format? required =>
    match find files path format? with
    | .ok found =>
      layerOf found.format (Text.decodeFile found.bytes) (some (name files found.path))
    | .error fault => if required then .error (.file fault) else .ok ⟨.blank, none⟩

def build (files : Files) (rs : List (Request Format)) : Except SettingsError Config :=
  rs.foldlM (fun c r => (collect files r).map c.overlay) .empty

def text (e : Entry) : Except String String :=
  match e.shape.scalar? Binary64.text with
  | some t => .ok t
  | none => .error (describe e.shape)

def configDirectory? (env : Environment) : Option Path :=
  (env.xdgConfigHome.filter (Path.isAbsolute ·)).or
    (env.home.map (Path.join · (Text.encode ".config")))

def backend : Backend where
  Format := Format
  toml := .toml
  json := .json
  yaml := .yaml
  ofExtension? := Format.ofExtension?
  Real := Binary64
  writeReal := Binary64.text
  Document := Entries
  blank := .blank
  keys d := d.shapes.map Prod.fst
  shape? d key := d.shapes.lookup key
  read := read
  decode := Text.decodeFile
  find := find
  name := name
  collect := collect
  Config := Config
  empty := .empty
  overlay := Config.overlay
  build := build
  Value := Entry
  entries := Config.entries
  entries_nodup := Config.entries_nodup
  shape := Entry.shape
  origin := Entry.origin
  isNull e := e.shape == .unit
  text := text
  missing key := "missing field `" ++ key ++ "`"
  LeadsBelow key name := (KeyPath.ofKey key).root = name
  configDirectory? := configDirectory?

end PageLookup.Standard
